import Mathlib.Order.Defs.Unbundled
import Circuit.Proofs.Decimal.Digits
import Circuit.Proofs.Variable.Wire

/-!
# Numberings

Variables are numbered in two ways: by all integers, as raw numbers, and by the natural numbers, as wires behind
a public section. Each number belongs to one variable, and the raw numbers put the variables into an order.

* `Variable.exists_wire_iff` says which variables have a wire, and `Variable.wire_of_outside` how the others
  are refused.
* `Variable.precedes_iff`, `Variable.follows_iff`, `Variable.atMost_iff` and `Variable.atLeast_iff` compare
  variables; `precedes` is a strict total order.
* `Variable.numberings_biject` puts these together.
-/

namespace Circuit.Variable

/-! ### Wires -/

/-- The constant and the local variables have a wire in any case, the public ones inside of the section. -/
theorem exists_wire_iff (shift : Nat) (v : Variable) :
    (∃ n, v.wire shift = .ok n) ↔ v = .one ∨ v.isLocal = true ∨ ∃ index < shift, v = .pub index := by
  simp only [wire_eq_ok, exists_and_left, exists_eq, and_true]
  cases v with
  | one => simp [Inside]
  | loc id positive => simp [Inside, isLocal]
  | pub index =>
    show index + 1 ≤ shift ↔ _
    rw [Nat.add_one_le_iff]
    simp [isLocal]

/-- A variable without a wire is one that the circuit must not name. Its fault tells the wire, as long as that
can be written. -/
theorem wire_of_outside (shift : Nat) (v : Variable) (outside : ¬ ∃ n, v.wire shift = .ok n)
    (writable : Decimal.isWritable (v.index + 1) = true) :
    v.wire shift = .error (.outsidePublic v (v.index + 1) (Decimal.ofNat shift)) := by
  have not_inside : ¬ v.Inside shift := fun inside => outside ⟨_, wire_of_inside shift v inside⟩
  rw [wire_of_not_inside shift v not_inside, Variable.outside, if_pos writable]

/-! ### Order -/

theorem precedes_iff (u v : Variable) : u.precedes v = true ↔ u.raw < v.raw := by
  simp [precedes]

theorem follows_iff (u v : Variable) : u.follows v = true ↔ v.raw < u.raw := by
  simp [follows]

theorem atMost_iff (u v : Variable) : u.atMost v = true ↔ u.precedes v = true ∨ u = v := by
  rw [precedes_iff, ← raw_inj, ← Int.le_iff_lt_or_eq]
  simp [atMost]

/-- The comparisons come in pairs: what is not before is at least. -/
theorem atLeast_iff (u v : Variable) : u.atLeast v = true ↔ ¬ u.precedes v = true := by
  rw [precedes_iff, Int.not_lt]
  simp [atLeast]

/-- Variables are in a strict total order, since no two of them have one raw number. -/
instance : IsStrictTotalOrder Variable fun u v => u.precedes v = true where
  trichotomous u v not_less not_greater := by
    rw [precedes_iff] at not_less not_greater
    exact raw_inj.1 (by omega)
  irrefl v := by
    rw [precedes_iff]
    exact Int.lt_irrefl v.raw
  trans u v w first second := by
    rw [precedes_iff] at first second ⊢
    exact Int.lt_trans first second

/-! ### Both numberings -/

/-- A public section of any size gives a wire to the constant, to each local variable, and to the public
variables inside of it; any other variable is a contradiction in the circuit. Each natural number is the wire of
one variable: zero of the constant, the next ones of the public section, and the rest of the local variables.
Raw numbers lead from the variables to all integers and back, and variables compare as these do. -/
theorem numberings_biject (shift : Nat) :
    (∀ v : Variable, (∃ n, v.wire shift = .ok n) ↔
      v = .one ∨ v.isLocal = true ∨ ∃ index < shift, v = .pub index) ∧
    (∀ v : Variable, (¬ ∃ n, v.wire shift = .ok n) → v.index + 1 < 10 ^ Decimal.digitLimit →
      ∃ fault, v.wire shift = .error fault ∧ fault.kind = .invariant ∧
        fault = .outsidePublic v (v.index + 1) (Decimal.ofNat shift)) ∧
    (∀ n, ∃! v : Variable, v.wire shift = .ok n) ∧
    (∀ v : Variable, v.wire shift = .ok 0 ↔ v = .one) ∧
    (∀ n, 1 ≤ n → n ≤ shift → ∀ v : Variable, v.wire shift = .ok n ↔ v = .pub (n - 1)) ∧
    (∀ n (behind : shift < n) (v : Variable),
      v.wire shift = .ok n ↔ v = .loc (n - shift) (Nat.sub_pos_of_lt behind)) ∧
    (∀ v : Variable, ofRaw v.raw = v) ∧ (∀ n : Int, (ofRaw n).raw = n) ∧
    (∀ u v : Variable, (u = v ↔ u.raw = v.raw) ∧ (u.precedes v = true ↔ u.raw < v.raw) ∧
      (u.atMost v = true ↔ u.raw ≤ v.raw) ∧ (u.follows v = true ↔ u.raw > v.raw) ∧
      (u.atLeast v = true ↔ u.raw ≥ v.raw)) ∧
    IsStrictTotalOrder Variable (fun u v => u.precedes v = true) ∧
    ∀ u v : Variable, u.atMost v = true ↔ u.precedes v = true ∨ u = v := by
  refine ⟨exists_wire_iff shift, ?_, existsUnique_wire shift, ?_, ?_, ?_, ofRaw_raw, raw_ofRaw, ?_,
    inferInstance, atMost_iff⟩
  · intro v outside short
    exact ⟨_, wire_of_outside shift v outside ((Decimal.isWritable_natCast _).2 short), rfl, rfl⟩
  · intro v
    exact wire_eq_wireNumber_iff shift .one v trivial
  · intro n first last v
    obtain ⟨k, rfl⟩ := Nat.exists_eq_add_of_le' first
    exact wire_eq_slot_iff last v
  · intro n behind v
    have number : n = wireNumber shift (.loc (n - shift) (Nat.sub_pos_of_lt behind)) :=
      (Nat.sub_add_cancel (Nat.le_of_lt behind)).symm
    conv_lhs => rw [number]
    exact wire_eq_wireNumber_iff shift _ v trivial
  · intro u v
    have at_least : u.atLeast v = true ↔ u.raw ≥ v.raw := by
      rw [atLeast_iff, precedes_iff, Int.not_lt]
    exact ⟨raw_inj.symm, precedes_iff u v, by simp [atMost], follows_iff u v, at_least⟩

/-- Behind a public section of two slots, the third public variable is refused, the last slot is wire two, and
wire five is that of the third local variable. -/
theorem numberings_biject_two :
    ((¬ ∃ n, wire 2 (.pub 2) = .ok n) ∧ index (.pub 2) + 1 < 10 ^ Decimal.digitLimit ∧
      ∃ fault, wire 2 (.pub 2) = .error fault ∧ fault.kind = .invariant ∧
        fault = .outsidePublic (.pub 2) 3 (Decimal.ofNat 2)) ∧
    (1 ≤ 2 ∧ 2 ≤ 2 ∧ ∀ v : Variable, v.wire 2 = .ok 2 ↔ v = .pub 1) ∧
    (2 < 5 ∧ ∀ v : Variable, v.wire 2 = .ok 5 ↔ v = .loc 3 (by decide)) := by
  obtain ⟨defined, refused, -, -, slots, locals, -⟩ := numberings_biject 2
  have outside : ¬ ∃ n, wire 2 (.pub 2) = .ok n := by
    rw [defined]
    simp [isLocal]
  have short : index (.pub 2) + 1 < 10 ^ Decimal.digitLimit :=
    Nat.lt_of_lt_of_le (by decide : 3 < 10 ^ 1) (Nat.pow_le_pow_right (by decide) (by decide))
  exact ⟨⟨outside, short, refused _ outside short⟩, ⟨by decide, by decide, slots 2 (by decide) (by decide)⟩,
    by decide, locals 5 (by decide)⟩

end Circuit.Variable

import Mathlib.Logic.ExistsUnique
import Circuit.Variable.Reading

/-!
# Numbering wires

The variables that have a wire under a public section of a given size, and their wires. The two
sections of a circuit never meet, so a wire belongs to one variable only.

* `Variable.wire_eq_ok` says which variables have a wire, and which.
* `Variable.ofWire_wireNumber` leads from the wire back to the variable, and `wireNumber_inj` says
  that no two variables share one.
* `Variable.wireNumber_ofWire`: every number is the wire of a variable.
* `Variable.wire_eq_ok_iff` puts these together: a wire belongs to the variable `ofWire`, and to no other one.
-/

namespace Circuit.Variable

/-- A variable with a place: a public one must lie in the public section. -/
def Inside (shift : Nat) : Variable → Prop
  | .pub index => index + 1 ≤ shift
  | _ => True

instance (shift : Nat) (v : Variable) : Decidable (v.Inside shift) :=
  match v with
  | .one => inferInstanceAs (Decidable True)
  | .pub index => inferInstanceAs (Decidable (index + 1 ≤ shift))
  | .loc _ _ => inferInstanceAs (Decidable True)

def wireNumber (shift : Nat) : Variable → Nat
  | .one => 0
  | .pub index => index + 1
  | .loc id _ => id + shift

/-- The variable of a wire: the constant, then the public section, then the local variables. -/
def ofWire (shift wire : Nat) : Variable :=
  if wire = 0 then .one
  else if h : 0 < wire - shift then .loc (wire - shift) h
  else .pub (wire - 1)

theorem wire?_of_inside (shift : Nat) (v : Variable) (h : v.Inside shift) :
    v.wire? shift = some (v.wireNumber shift) := by
  cases v with
  | one => rfl
  | loc id positive => rfl
  | pub index =>
    have inside : index < shift := h
    simp [wire?, wireNumber, inside]

theorem wire?_of_not_inside (shift : Nat) (v : Variable) (h : ¬ v.Inside shift) :
    v.wire? shift = none := by
  cases v with
  | one => exact absurd trivial h
  | loc id positive => exact absurd trivial h
  | pub index =>
    have outside : ¬ index < shift := h
    simp [wire?, outside]

/-- A variable has a wire exactly when it has a place, and then it is the wire of the place. -/
theorem wire_eq_ok (shift : Nat) (v : Variable) (n : Nat) :
    v.wire shift = .ok n ↔ v.Inside shift ∧ n = v.wireNumber shift := by
  unfold wire
  by_cases h : v.Inside shift
  · simp [wire?_of_inside shift v h, h, eq_comm]
  · simp [wire?_of_not_inside shift v h, h]

/-- A variable with a place has its wire. -/
theorem wire_of_inside (shift : Nat) (v : Variable) (h : v.Inside shift) :
    v.wire shift = .ok (v.wireNumber shift) :=
  (wire_eq_ok shift v _).2 ⟨h, rfl⟩

theorem wire_of_not_inside (shift : Nat) (v : Variable) (h : ¬ v.Inside shift) :
    v.wire shift = .error (v.outside (Decimal.ofNat shift)) := by
  unfold wire
  rw [wire?_of_not_inside shift v h]

/-- The variable of a wire undoes the numbering. -/
theorem ofWire_wireNumber (shift : Nat) (v : Variable) (h : v.Inside shift) :
    ofWire shift (v.wireNumber shift) = v := by
  cases v with
  | one => rfl
  | loc id positive =>
    have nonzero : ¬ id + shift = 0 := by omega
    have rest : id + shift - shift = id := by omega
    simp only [ofWire, wireNumber, if_neg nonzero, rest, dif_pos positive]
  | pub index =>
    have inside : index + 1 ≤ shift := h
    have nonzero : ¬ index + 1 = 0 := by omega
    have low : ¬ 0 < index + 1 - shift := by omega
    simp only [ofWire, wireNumber, if_neg nonzero, dif_neg low, Nat.add_sub_cancel]

/-- No two variables share a wire. -/
theorem wireNumber_inj (shift : Nat) (u v : Variable) (hu : u.Inside shift) (hv : v.Inside shift)
    (same : u.wireNumber shift = v.wireNumber shift) : u = v := by
  rw [← ofWire_wireNumber shift u hu, ← ofWire_wireNumber shift v hv, same]

theorem inside_ofWire (shift wire : Nat) : (ofWire shift wire).Inside shift := by
  unfold ofWire
  split
  · trivial
  · split
    · trivial
    · show wire - 1 + 1 ≤ shift
      omega

/-- Every number is the wire of its variable. -/
theorem wireNumber_ofWire (shift wire : Nat) : (ofWire shift wire).wireNumber shift = wire := by
  unfold ofWire
  split
  · rename_i zero
    exact zero.symm
  · split
    · show wire - shift + shift = wire
      omega
    · show wire - 1 + 1 = wire
      omega

/-- A wire belongs to its variable, and to no other one. -/
theorem wire_eq_ok_iff (shift n : Nat) (v : Variable) : v.wire shift = .ok n ↔ v = ofWire shift n := by
  rw [wire_eq_ok]
  constructor
  · intro ⟨inside, number⟩
    rw [number, ofWire_wireNumber shift v inside]
  · intro same
    rw [same]
    exact ⟨inside_ofWire shift n, (wireNumber_ofWire shift n).symm⟩

/-- Every wire is that of one variable. -/
theorem existsUnique_wire (shift n : Nat) : ∃! v : Variable, v.wire shift = .ok n := by
  simp only [wire_eq_ok_iff, existsUnique_eq]

/-- The wire of a variable with a place belongs to that variable only. -/
theorem wire_eq_wireNumber_iff (shift : Nat) (u v : Variable) (inside : u.Inside shift) :
    v.wire shift = .ok (u.wireNumber shift) ↔ v = u := by
  rw [wire_eq_ok_iff, ofWire_wireNumber shift u inside]

/-- The wire behind slot `k` of a public section belongs to the public variable of that slot. -/
theorem wire_eq_slot_iff {shift k : Nat} (inside : k < shift) (v : Variable) :
    v.wire shift = .ok (k + 1) ↔ v = .pub k :=
  wire_eq_wireNumber_iff shift (.pub k) v inside

end Circuit.Variable

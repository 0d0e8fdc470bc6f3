import Mathlib.Tactic.TFAE
import Circuit.Proofs.Canonical.Amount

/-!
# What a canonical form means

Combinations have the same canonical form exactly when they have the same value under all witnesses. A
witness tells two amounts apart that differ: it has one for their variable, and zero for all others but
the constant wire, which is one in every witness.

* `LinComb.amounts_of_sums`: the sums that witnesses show give the amounts.
* `LinComb.canonical_decides`: equality of canonical forms is equality under all witnesses.
-/

namespace Circuit

namespace LinComb

variable {F : Field}

/-- Only the integers of the variables that occur are summed. -/
theorem sum_congr {x y : Variable → Int} {a : LinComb} (agree : ∀ v ∈ a.vars, x v = y v) :
    a.sum x = a.sum y := by
  refine congrArg List.sum (List.map_congr_left fun t member => ?_)
  rw [agree t.var (List.mem_map_of_mem member)]

theorem sum_add (x y : Variable → Int) (a : LinComb) :
    a.sum (fun v => x v + y v) = a.sum x + a.sum y := by
  obtain ⟨ts⟩ := a
  induction ts with
  | nil => rfl
  | cons t rest ih =>
    rw [sum_cons, sum_cons, sum_cons, ih]
    ring

def assign (x : Variable → Int) (vs : List Variable) : Witness := .ofList (vs.map fun v => (v, x v))

theorem contains_assign (x : Variable → Int) {vs : List Variable} {v : Variable} (member : v ∈ vs) :
    (assign x vs).contains v = true := by
  rw [Witness.contains, assign, Witness.get?_ofList_map, if_pos member]
  rfl

/-- The constant wire must have one in any case. -/
theorem value_assign {x : Variable → Int} (constant : x .one = 1) {vs : List Variable} {v : Variable}
    (member : v ∈ vs) : (assign x vs).value v = x v := by
  rw [Witness.value, assign, Witness.get?_ofList_map, if_pos member]
  cases v <;> simp [Variable.isOne, constant]

/-- Sums over all integers with one for the constant wire tell the amounts. -/
theorem amounts_of_sums {a b : LinComb}
    (agree : ∀ x : Variable → Int, x .one = 1 → a.sum x ≡ b.sum x [ZMOD F.modulus]) (v : Variable) :
    a.amount v ≡ b.amount v [ZMOD F.modulus] := by
  have constant : a.amount .one ≡ b.amount .one [ZMOD F.modulus] := by
    rw [amount_eq_sum, amount_eq_sum]
    exact agree (unit .one) rfl
  by_cases one : v = .one
  · rw [one]
    exact constant
  · -- The constant wire is always one, so its amount is taken off.
    have both := agree (fun u => unit .one u + unit v u) (by simp [unit, Ne.symm one])
    rw [sum_add, sum_add, ← amount_eq_sum, ← amount_eq_sum, ← amount_eq_sum, ← amount_eq_sum] at both
    exact constant.add_left_cancel both

/-- A variable whose amount vanishes has no term in the canonical form. -/
theorem mem_vars_of_canonical {a : LinComb} (uniform : a.Over F) {t : Term}
    (member : t ∈ a.canonical.terms) : t.var ∈ a.vars := by
  have found := (Canonical.mem_terms_iff a.canonical t).1 member
  by_contra absent
  have zero : a.amount t.var = 0 :=
    a.amount_eq_zero t.var fun u there equal => absent (equal ▸ List.mem_map_of_mem there)
  rw [coeff?_canonical t.var uniform, zero, if_pos (Int.ModEq.refl _)] at found
  cases found

/-- A combination and its canonical form have the same value wherever the combination has one. -/
theorem evaluate_canonical {a : LinComb} (uniform : a.Over F) {w : Witness} {x : Element}
    (evaluated : a.evaluate w F = .ok x) : a.canonical.toLinComb.evaluate w F = .ok x := by
  rw [evaluate_eq_ok_iff] at evaluated ⊢
  obtain ⟨covered, value⟩ := evaluated
  constructor
  · intro t member
    obtain ⟨u, there, equal⟩ := List.mem_map.1 (mem_vars_of_canonical uniform member)
    exact equal ▸ covered u there
  · rw [← value, element_sumIn (modular_of_over (over_canonical uniform)),
      element_sumIn (modular_of_over uniform)]
    exact (F.element_eq_iff _ _).2 (sum_canonical w.value uniform)

/-- Equal canonical forms are sums that agree for all integers. -/
theorem sum_modEq_of_same {a b : LinComb} (a_over : a.Over F) (b_over : b.Over F)
    (same : a.canonical.same b.canonical = true) (x : Variable → Int) :
    a.sum x ≡ b.sum x [ZMOD F.modulus] := by
  have keys : a.canonical.toLinComb.key = b.canonical.toLinComb.key := of_decide_eq_true same
  calc a.sum x ≡ a.canonical.toLinComb.sum x [ZMOD F.modulus] := (sum_canonical x a_over).symm
    _ = b.canonical.toLinComb.sum x := sum_of_key x keys
    _ ≡ b.sum x [ZMOD F.modulus] := sum_canonical x b_over

/-- Combinations that no witness tells apart have the same canonical form. -/
theorem canonical_eq_of_evaluate {a b : LinComb} (a_over : a.Over F) (b_over : b.Over F)
    (agree : ∀ w : Witness, (∀ v ∈ a.vars ++ b.vars, w.contains v = true) →
      a.evaluate w F = b.evaluate w F) : a.canonical = b.canonical := by
  have sums : ∀ x : Variable → Int, x .one = 1 → a.sum x ≡ b.sum x [ZMOD F.modulus] := by
    intro x constant
    have known : ∀ v ∈ a.vars ++ b.vars, (assign x (a.vars ++ b.vars)).contains v = true :=
      fun v => contains_assign x
    have value : ∀ v ∈ a.vars ++ b.vars, (assign x (a.vars ++ b.vars)).value v = x v :=
      fun v => value_assign constant
    have covered : ∀ v ∈ a.vars ++ b.vars, (assign x (a.vars ++ b.vars)).Covers v :=
      fun v member different => known v member
    rw [List.forall_mem_append] at value covered
    have same := agree _ known
    rw [evaluate_of_modular (modular_of_over a_over) (List.forall_mem_map.1 covered.1),
      evaluate_of_modular (modular_of_over b_over) (List.forall_mem_map.1 covered.2), sum_congr value.1,
      sum_congr value.2] at same
    exact (F.element_eq_iff _ _).1 (Except.ok.inj same)
  exact canonical_eq_of_amounts a_over b_over (amounts_of_sums sums)

/-- Canonical forms are equal exactly when the combinations have the same value under all witnesses that
assign their variables; it makes no difference whether the constant wire has to be assigned. A
combination and its canonical form have the same value wherever the combination has one. -/
theorem canonical_decides (F : Field) (a b : LinComb) (a_over : a.Over F) (b_over : b.Over F) :
    [a.canonical.same b.canonical = true,
      ∀ w : Witness, (∀ v ∈ a.vars ++ b.vars, w.Covers v) →
        ∃ x, a.evaluate w F = .ok x ∧ b.evaluate w F = .ok x,
      ∀ w : Witness, (∀ v ∈ a.vars ++ b.vars, w.contains v = true) →
        a.evaluate w F = b.evaluate w F].TFAE ∧
    ∀ (w : Witness) (x : Element), a.evaluate w F = .ok x →
      a.canonical.toLinComb.evaluate w F = .ok x := by
  refine ⟨?_, fun w x => evaluate_canonical a_over⟩
  tfae_have 1 → 2 := by
    intro same w covered
    rw [List.forall_mem_append] at covered
    have sums := sum_modEq_of_same a_over b_over same w.value
    refine ⟨_, evaluate_of_modular (modular_of_over a_over) (List.forall_mem_map.1 covered.1), ?_⟩
    rw [evaluate_of_modular (modular_of_over b_over) (List.forall_mem_map.1 covered.2),
      (F.element_eq_iff _ _).2 sums]
  tfae_have 2 → 3 := by
    intro agree w assigned
    obtain ⟨x, left, right⟩ := agree w fun v member different => assigned v member
    rw [left, right]
  tfae_have 3 → 1 := by
    intro agree
    rw [canonical_eq_of_evaluate a_over b_over agree]
    exact decide_eq_true rfl
  tfae_finish

/-- `2 * _1 + 3 * ~one + 3 * _1`, and `5 * _1 + 3 * ~one` with a term that is zero. -/
def split : LinComb :=
  ⟨[⟨.loc 1 Nat.one_pos, Field.scalars.element 2⟩, ⟨.one, Field.scalars.element 3⟩,
    ⟨.loc 1 Nat.one_pos, Field.scalars.element 3⟩]⟩

def joined : LinComb :=
  ⟨[⟨.loc 1 Nat.one_pos, Field.scalars.element 5⟩, ⟨.pub 0, Field.scalars.element 0⟩,
    ⟨.one, Field.scalars.element 3⟩]⟩

/-- Two rows of terms for one canonical form, under fours everywhere. -/
theorem canonical_decides_split :
    split.Over Field.scalars ∧ joined.Over Field.scalars ∧
      split.canonical.same joined.canonical = true ∧
      ∃ x, split.evaluate (assign (fun _ => 4) joined.vars) Field.scalars = .ok x ∧
        joined.evaluate (assign (fun _ => 4) joined.vars) Field.scalars = .ok x := by
  have split_over : split.Over Field.scalars := by
    unfold Over
    decide
  have joined_over : joined.Over Field.scalars := by
    unfold Over
    decide
  have equivalent := ((canonical_decides Field.scalars split joined split_over joined_over).1.out 0 1)
  have same : split.canonical.same joined.canonical = true := by decide +kernel
  refine ⟨split_over, joined_over, same, equivalent.1 same _ fun v member _ => ?_⟩
  exact contains_assign _ (by revert v; decide)

end LinComb

end Circuit

import Circuit.Operand.Arithmetic
import Circuit.Proofs.LinComb.Arithmetic
import Circuit.Proofs.R1cs.RoundTrip

/-!
# Short forms of operands

A bare variable may stand on the right of a sum or a difference, and a scalar on the left of a product. A bare
variable is read over the scalar field, also when the other side has its coefficients in another field. What its
coefficient adds to a value in a field is then a matter of two things. Where it passes for an element of that
field, as in the base field, it keeps calculating modulo the scalar modulus. Where it does not, its integer counts:
one is one in every field, but the negated one is the scalar modulus less one, and stands for minus one only where
that modulus vanishes. A scalar on the left has to be an integer.

* `LinComb.evaluate_add_term_eq_iff` compares combinations that differ in their last coefficient.
* `LinComb.evaluate_add_scalars_iff` and `LinComb.evaluate_sub_scalars_iff` compare a sum and a difference with a
  variable over the scalar field to those with the variable over the field of the evaluation.
* `Operand.shortForms_agree_iff` says when the short forms mean the same as the explicit ones.
-/

namespace Circuit

open Witness

namespace Term

variable {F : Field} {x : Variable → Int} {v : Variable}

/-- A coefficient that passes for an element of `F` reduces by its own modulus what `F` has reduced before. -/
theorem product_of_isInstance {t : Term} (passes : t.coeff.isInstance F = true) :
    t.product F x = t.coeff.toInt * (x t.var % F.modulus) % t.coeff.field.modulus := by
  have residue : (F.element (x t.var)).toInt = x t.var % F.modulus := F.element_value _
  rw [product, Element.coerce, if_pos passes, residue]
  exact t.coeff.field.element_value _

/-- One times a coefficient is the coefficient, whatever it calculates with. -/
theorem product_of_one {t : Term} (one : x t.var = 1) : t.product F x ≡ t.coeff.toInt [ZMOD F.modulus] := by
  by_cases trivial : F.modulus = 1
  · rw [trivial]
    exact Int.modEq_one
  · have above : 1 < F.modulus := Nat.lt_of_le_of_ne F.positive (Ne.symm trivial)
    have residue : (F.element 1).toInt = 1 :=
      (F.element_value 1).trans (Int.emod_eq_of_lt Int.one_nonneg (Int.ofNat_lt.2 above))
    have itself : (t.coeff.coerce F).mul 1 = t.coeff.coerce F := by
      rw [Element.mul, Int.mul_one]
      exact Field.element_ofValue _
    rw [product, one, residue, itself]
    exact t.coeff.coerce_modEq F

/-- A coefficient of the field itself multiplies modulo its modulus. -/
theorem product_own (n : Int) : product F x ⟨v, F.element n⟩ ≡ n * x v [ZMOD F.modulus] :=
  (product_modEq (Element.modular_of_field rfl) x).trans ((F.value_modEq n).mul_right _)

end Term

/-- The fields that scalars pass for elements of are no smaller than theirs. -/
theorem Field.scalars_modulus_le {F : Field} (derived : Field.scalars.derives F = true) :
    Field.scalars.modulus ≤ F.modulus := by
  rcases List.mem_cons.1 (of_decide_eq_true derived) with own | inherited
  · exact Nat.le_of_eq (congrArg FieldClass.modulus own.symm)
  · rw [List.mem_singleton.1 inherited]
    decide

/-- A scalar calculates modulo the modulus of a field unless it passes for an element there and the moduli differ. -/
theorem Element.modular_scalar_iff {F : Field} {x : Element} (scalar : x.field = .scalars) (nonzero : x.value ≠ 0) :
    x.Modular F ↔ (Field.scalars.derives F = true → Field.scalars.modulus = F.modulus) := by
  rw [modular_iff, isInstance, scalar, or_iff_left nonzero]
  refine forall_congr' fun derived => ⟨fun divides => ?_, fun same => same ▸ Nat.dvd_refl _⟩
  exact Nat.le_antisymm (Field.scalars_modulus_le derived) (Nat.le_of_dvd Field.scalars.positive divides)

namespace LinComb

variable {F : Field} {a : LinComb} {v : Variable} {w : Witness}

/-- One more term is visited last, and adds its product. -/
theorem evaluate_add_term (a : LinComb) (t : Term) (w : Witness) (F : Field) :
    (a.add ⟨[t]⟩).evaluate w F =
      w.unlessMissing (a.vars ++ [t.var]) (F.element (a.sumIn F w.value + t.product F w.value)) := by
  have single : sumIn F w.value ⟨[t]⟩ = t.product F w.value := List.sum_singleton
  rw [evaluate_outcome, vars_add, add_sumIn, single]
  rfl

/-- Combinations that differ in their last coefficient have one value exactly when the products agree; for want of a
value both fail alike. -/
theorem evaluate_add_term_eq_iff {t u : Term} (var : t.var = u.var) :
    (a.add ⟨[t]⟩).evaluate w F = (a.add ⟨[u]⟩).evaluate w F ↔
      ((∀ v ∈ a.vars ++ [t.var], w.Covers v) → t.product F w.value ≡ u.product F w.value [ZMOD F.modulus]) := by
  rw [evaluate_add_term, evaluate_add_term, ← var, unlessMissing_inj, F.element_eq_iff]
  exact imp_congr_right fun _ => ⟨fun same => same.add_left_cancel' _, fun same => same.add_left _⟩

/-- The variable with a coefficient of `F` instead, and what it comes to. -/
theorem evaluate_add_own (a : LinComb) (v : Variable) (n : Int) (w : Witness) :
    (a.add ⟨[⟨v, F.element n⟩]⟩).evaluate w F =
      w.unlessMissing (a.vars ++ [v]) (F.element (a.sumIn F w.value + n * w.value v)) := by
  have value := (F.element_eq_iff _ _).2 ((Term.product_own (x := w.value) (v := v) n).add_left (a.sumIn F w.value))
  rw [evaluate_add_term, value]

theorem evaluate_add_ofVariable (a : LinComb) (v : Variable) (w : Witness) :
    (a.add (ofVariable v F)).evaluate w F =
      w.unlessMissing (a.vars ++ [v]) (F.element (a.sumIn F w.value + w.value v)) := by
  have own := evaluate_add_own (F := F) a v 1 w
  rwa [Int.one_mul] at own

theorem sub_ofVariable (a : LinComb) (v : Variable) (F : Field) :
    a.sub (ofVariable v F) = a.add ⟨[⟨v, F.element (-1)⟩]⟩ := by
  rw [← F.neg_element 1]
  rfl

theorem evaluate_sub_ofVariable (a : LinComb) (v : Variable) (w : Witness) :
    (a.sub (ofVariable v F)).evaluate w F =
      w.unlessMissing (a.vars ++ [v]) (F.element (a.sumIn F w.value - w.value v)) := by
  rw [sub_ofVariable, evaluate_add_own, Int.neg_one_mul, Int.sub_eq_add_neg]

/-- Sums with the variable over the two fields agree everywhere unless scalars pass for elements of the field of the
evaluation and calculate with a smaller modulus. That modulus itself, as value of the variable, is then zero for one
of the sums. -/
theorem evaluate_add_scalars_iff (a : LinComb) (v : Variable) (F : Field) :
    (∀ w, (a.add (ofVariable v Field.scalars)).evaluate w F = (a.add (ofVariable v F)).evaluate w F) ↔
      (v ≠ .one → Field.scalars.derives F = true → Field.scalars.modulus = F.modulus) := by
  have compared (w : Witness) := evaluate_add_term_eq_iff (F := F) (a := a) (w := w)
    (t := ⟨v, Field.scalars.element 1⟩) (u := ⟨v, F.element 1⟩) rfl
  constructor
  · intro agree different derived
    let w := assign (fun u => if u = .one then 1 else Field.scalars.modulus) (a.vars ++ [v])
    have covered : ∀ u ∈ a.vars ++ [v], w.Covers u := fun u member _ => contains_assign _ member
    have value : w.value v = Field.scalars.modulus :=
      (value_assign (if_pos rfl) List.mem_concat_self).trans (if_neg different)
    have least : Field.scalars.modulus ≤ F.modulus := Field.scalars_modulus_le derived
    by_contra unequal
    have below : (Field.scalars.modulus : Int) < F.modulus := Int.ofNat_lt.2 (Nat.lt_of_le_of_ne least unequal)
    have short : Term.product F w.value ⟨v, Field.scalars.element 1⟩ = 0 := by
      rw [Term.product_of_isInstance (t := ⟨v, Field.scalars.element 1⟩) derived, value,
        Int.emod_eq_of_lt (Int.natCast_nonneg _) below]
      exact Int.mul_emod_left _ _
    have own := Term.product_own (F := F) (x := w.value) (v := v) 1
    have same := (compared w).1 (agree w) covered
    rw [short] at same
    rw [value, Int.one_mul] at own
    have divides := Int.natCast_dvd_natCast.1 (Int.modEq_zero_iff_dvd.1 (same.trans own).symm)
    exact unequal (Nat.le_antisymm least (Nat.le_of_dvd Field.scalars.positive divides))
  · intro condition w
    refine (compared w).2 fun covered => ?_
    by_cases constant : v = .one
    · have one : w.value v = 1 := if_pos ((isOne_eq_true v).2 constant)
      have own := Term.product_own (F := F) (x := w.value) (v := v) 1
      rw [one] at own
      exact (Term.product_of_one one).trans own.symm
    · have modular : (Field.scalars.element 1).Modular F :=
        (Element.modular_scalar_iff rfl (by decide)).2 (condition constant)
      exact (Term.product_modEq modular w.value).trans (Term.product_own 1).symm

/-- The integer of the negated coefficient. -/
theorem toInt_neg_scalar : (Field.scalars.element 1).neg.toInt = -1 + Field.scalars.modulus := rfl

/-- A difference with a variable over the scalar field is too large by the scalar modulus for every unit of the
variable, as far as scalars calculate modulo the modulus. -/
theorem evaluate_sub_scalars (a : LinComb) (v : Variable) (w : Witness)
    (modular : (Field.scalars.element 1).neg.Modular F) :
    (a.sub (ofVariable v Field.scalars)).evaluate w F =
      ((a.sub (ofVariable v F)).evaluate w F).map fun z => z.add (Field.scalars.modulus * w.value v) := by
  have product : Term.product F w.value ⟨v, (Field.scalars.element 1).neg⟩ ≡
      -w.value v + Field.scalars.modulus * w.value v [ZMOD F.modulus] := by
    have integer := Term.product_modEq (t := ⟨v, (Field.scalars.element 1).neg⟩) modular w.value
    rwa [toInt_neg_scalar, Int.add_mul, Int.neg_one_mul] at integer
  have value := (F.element_eq_iff _ _).2 (product.add_left (a.sumIn F w.value))
  rw [evaluate_sub_ofVariable, map_unlessMissing, F.add_integer, Int.sub_eq_add_neg, Int.add_assoc, ← value]
  exact evaluate_add_term a ⟨v, (Field.scalars.element 1).neg⟩ w F

/-- Differences with the variable over the two fields agree everywhere when the scalar modulus vanishes in the field
of the evaluation; the witness of ones tells them apart when it does not. -/
theorem evaluate_sub_scalars_iff (a : LinComb) (v : Variable) (F : Field) :
    (∀ w, (a.sub (ofVariable v Field.scalars)).evaluate w F = (a.sub (ofVariable v F)).evaluate w F) ↔
      (F.modulus : Int) ∣ Field.scalars.modulus := by
  constructor
  · intro agree
    let ones : Witness := assign (fun _ => 1) (a.vars ++ [v])
    have covered : ∀ u ∈ a.vars ++ [v], ones.Covers u := fun u member _ => contains_assign _ member
    have one : ones.value v = 1 := value_assign rfl List.mem_concat_self
    have same := agree ones
    rw [sub_ofVariable a v F] at same
    have products := (evaluate_add_term_eq_iff (a := a) (F := F) (w := ones)
      (t := ⟨v, (Field.scalars.element 1).neg⟩) (u := ⟨v, F.element (-1)⟩) rfl).1 same covered
    have short := Term.product_of_one (F := F) (t := ⟨v, (Field.scalars.element 1).neg⟩) one
    have own := Term.product_own (F := F) (x := ones.value) (v := v) (-1)
    rw [one, Int.mul_one] at own
    rw [toInt_neg_scalar] at short
    have residues : -1 + (Field.scalars.modulus : Int) ≡ -1 + 0 [ZMOD F.modulus] :=
      (short.symm.trans products).trans own
    exact Int.modEq_zero_iff_dvd.1 (residues.add_left_cancel' _)
  · intro divides w
    have modular : (Field.scalars.element 1).neg.Modular F :=
      Element.modular_iff.2 fun _ => .inl (Int.natCast_dvd_natCast.1 divides)
    have surplus : (Field.scalars.modulus : Int) * w.value v ≡ 0 [ZMOD F.modulus] :=
      Int.modEq_zero_iff_dvd.2 (Dvd.dvd.mul_right divides _)
    have value : F.element (a.sumIn F w.value - w.value v + Field.scalars.modulus * w.value v) =
        F.element (a.sumIn F w.value - w.value v) := by
      have unchanged := surplus.add_left (a.sumIn F w.value - w.value v)
      rwa [Int.add_zero, ← F.element_eq_iff] at unchanged
    rw [evaluate_sub_scalars a v w modular, evaluate_sub_ofVariable, map_unlessMissing, F.add_integer, value]

/-- Where scalars pass for elements of the field, the variable is reduced in that field and then as a scalar. -/
theorem evaluate_scalars_of_derives (derived : Field.scalars.derives F = true)
    (covered : ∀ u ∈ a.vars ++ [v], w.Covers u) :
    (a.add (ofVariable v Field.scalars)).evaluate w F =
        .ok (F.element (a.sumIn F w.value + w.value v % F.modulus % Field.scalars.modulus)) ∧
      (a.sub (ofVariable v Field.scalars)).evaluate w F =
        .ok (F.element (a.sumIn F w.value + -(w.value v % F.modulus) % Field.scalars.modulus)) := by
  have sum : Term.product F w.value ⟨v, Field.scalars.element 1⟩ =
      w.value v % F.modulus % Field.scalars.modulus := by
    rw [Term.product_of_isInstance (t := ⟨v, Field.scalars.element 1⟩) derived]
    exact congrArg (· % (Field.scalars.modulus : Int)) (Int.one_mul _)
  have difference : Term.product F w.value ⟨v, (Field.scalars.element 1).neg⟩ =
      -(w.value v % F.modulus) % Field.scalars.modulus := by
    rw [Term.product_of_isInstance (t := ⟨v, (Field.scalars.element 1).neg⟩) derived, toInt_neg_scalar,
      Int.add_mul, Int.neg_one_mul]
    exact Int.add_mul_emod_self_left _ _ _
  constructor
  · rw [← sum, ← unlessMissing_of_covered covered]
    exact evaluate_add_term a ⟨v, Field.scalars.element 1⟩ w F
  · rw [← difference, ← unlessMissing_of_covered covered]
    exact evaluate_add_term a ⟨v, (Field.scalars.element 1).neg⟩ w F

end LinComb

namespace Operand

def valueOf (w : Witness) (F : Field) (calculated : Except Fault Operand) : Except Fault Element :=
  calculated.bind (evaluate w F)

theorem rmul_comb_eq_mul_iff (k : Scalar) (a : LinComb) :
    rmul k (.comb a) = mul k (.comb a) ↔ ∃ n, k = .integer n := by
  cases k with
  | integer n => exact ⟨fun _ => ⟨n, rfl⟩, fun _ => rfl⟩
  | element z => exact ⟨nofun, nofun⟩

/-- What the short forms of operands mean beside the explicit ones, which read the variable over the field of the
evaluation and have the scalar on the right. Sums of the two forms agree under all witnesses unless scalars pass for
elements of the field without calculating with its modulus, as in the base field, and then only those with the
constant wire do. Differences agree under all witnesses exactly if the scalar modulus vanishes in the field, which
for a prime field means that the two moduli are one. Where scalars calculate modulo the modulus, the value of the
short difference is that of the explicit one and the scalar modulus for every unit of the variable; where they
pass for elements of the field, both short forms reduce the variable by the scalar modulus too. The explicit forms
have a value wherever the variables have, and for want of a value both forms fail with the same fault. A scalar may
stand on the left of a combination exactly if it is an integer, and then the product is the same; with an element
there, there is no product. -/
theorem shortForms_agree_iff (F : Field) (a : LinComb) (v : Variable) (k : Scalar) :
    ((∀ w, valueOf w F (add (.comb a) (.var v)) = valueOf w F (add (.comb a) (.comb (.ofVariable v F)))) ↔
      (v ≠ .one → Field.scalars.derives F = true → Field.scalars.modulus = F.modulus)) ∧
    ((∀ w, valueOf w F (sub (.comb a) (.var v)) = valueOf w F (sub (.comb a) (.comb (.ofVariable v F)))) ↔
      (F.modulus : Int) ∣ Field.scalars.modulus) ∧
    ((Field.scalars.derives F = true → Field.scalars.modulus = F.modulus) → ∀ w,
      valueOf w F (sub (.comb a) (.var v)) =
        (valueOf w F (sub (.comb a) (.comb (.ofVariable v F)))).map fun z =>
          z.add (Field.scalars.modulus * w.value v)) ∧
    (Field.scalars.derives F = true → ∀ w : Witness, (∀ u ∈ a.vars ++ [v], w.Covers u) →
      valueOf w F (add (.comb a) (.var v)) =
          .ok (F.element (a.sumIn F w.value + w.value v % F.modulus % Field.scalars.modulus)) ∧
        valueOf w F (sub (.comb a) (.var v)) =
          .ok (F.element (a.sumIn F w.value + -(w.value v % F.modulus) % Field.scalars.modulus))) ∧
    (∀ w : Witness, (∀ u ∈ a.vars ++ [v], w.Covers u) →
      valueOf w F (add (.comb a) (.comb (.ofVariable v F))) = .ok (F.element (a.sumIn F w.value + w.value v)) ∧
      valueOf w F (sub (.comb a) (.comb (.ofVariable v F))) = .ok (F.element (a.sumIn F w.value - w.value v))) ∧
    (∀ (w : Witness) (u : Variable), w.FirstMissing (a.vars ++ [v]) u →
      ∀ operation ∈ [add, sub], ∀ b ∈ [.var v, .comb (.ofVariable v F)],
        valueOf w F (operation (.comb a) b) = .error (.missingValue u)) ∧
    mul k (.comb a) = .ok (.comb (a.mul k)) ∧
    (rmul k (.comb a) = mul k (.comb a) ↔ ∃ n, k = .integer n) ∧
    ∀ z, rmul (.element z) (.comb a) = .error .unsupported := by
  refine ⟨a.evaluate_add_scalars_iff v F, a.evaluate_sub_scalars_iff v F, fun condition w => ?_,
    fun derived w covered => LinComb.evaluate_scalars_of_derives derived covered, fun w covered => ⟨?_, ?_⟩,
    fun w u first => ?_, rfl, rmul_comb_eq_mul_iff k a, fun z => rfl⟩
  · exact a.evaluate_sub_scalars v w ((Element.modular_scalar_iff rfl (by decide)).2 condition)
  · exact (a.evaluate_add_ofVariable v w).trans (unlessMissing_of_covered covered _)
  · exact (a.evaluate_sub_ofVariable v w).trans (unlessMissing_of_covered covered _)
  · have missing (t : Term) (var : t.var = v) : (a.add ⟨[t]⟩).evaluate w F = .error (.missingValue u) := by
      rw [LinComb.evaluate_add_term, var]
      exact unlessMissing_eq_error_iff.2 ⟨u, first, rfl⟩
    simp only [List.forall_mem_cons, List.not_mem_nil, false_imp_iff, implies_true, and_true]
    exact ⟨⟨missing ⟨v, Field.scalars.element 1⟩ rfl, missing ⟨v, F.element 1⟩ rfl⟩,
      missing ⟨v, (Field.scalars.element 1).neg⟩ rfl, missing ⟨v, (F.element 1).neg⟩ rfl⟩

/-- `3 * _2` over the integers modulo seven. -/
def tripled : LinComb := ⟨[⟨.loc 2 Nat.two_pos, Field.seven.element 3⟩]⟩

def oneAndTwo : Witness := .ofList [(.loc 1 Nat.one_pos, 1), (.loc 2 Nat.two_pos, 2)]

/-- The scalar modulus as the value of `_1`. -/
def wholeScalar : Witness := .ofList [(.loc 1 Nat.one_pos, Field.scalars.modulus)]

/-- At one and two, `3 * _2 + _1` is seven modulo seven, and `3 * _2 - _1` should be five: six more, which the
scalar modulus leaves, make it four. In the base field the sum of nothing and `_1` is zero where the value of `_1`
is not. -/
theorem shortForms_agree_iff_tripled :
    (∀ u ∈ tripled.vars ++ [.loc 1 Nat.one_pos], oneAndTwo.Covers u) ∧
      valueOf oneAndTwo Field.seven (add (.comb tripled) (.var (.loc 1 Nat.one_pos))) =
        .ok (Field.seven.element 7) ∧
      valueOf oneAndTwo Field.seven (sub (.comb tripled) (.var (.loc 1 Nat.one_pos))) =
        .ok (Field.seven.element 4) ∧
      valueOf wholeScalar Field.base (add (.comb .zero) (.var (.loc 1 Nat.one_pos))) =
        .ok (Field.base.element 0) ∧
      rmul (.integer 2) (.comb tripled) = mul (.integer 2) (.comb tripled) := by
  have covered : ∀ u ∈ tripled.vars ++ [.loc 1 Nat.one_pos], oneAndTwo.Covers u := by decide
  have foreign : ¬ Field.scalars.derives Field.seven = true := by decide
  obtain ⟨sum, -, difference, -, explicit, -, -, product, -⟩ :=
    shortForms_agree_iff Field.seven tripled (.loc 1 Nat.one_pos) (.integer 2)
  obtain ⟨explicit_sum, explicit_difference⟩ := explicit oneAndTwo covered
  obtain ⟨-, -, -, derived, -⟩ := shortForms_agree_iff Field.base .zero (.loc 1 Nat.one_pos) (.integer 2)
  refine ⟨covered, ?_, ?_, (derived (by decide) wholeScalar (by decide)).1, product.2 ⟨2, rfl⟩⟩
  · rw [sum.2 fun _ passes => absurd passes foreign, explicit_sum]
    rfl
  · rw [difference fun passes => absurd passes foreign, explicit_difference]
    rfl

/-- Over the integers modulo seven, `3 * _2 - _1` at one and two is four in the short form and five in the
explicit one, and `2 * (3 * _2)` is no product where `(3 * _2) * 2` is one. -/
theorem shortForms_disagree_seven :
    (tripled.Over Field.seven ∧ ∀ u ∈ tripled.vars ++ [.loc 1 Nat.one_pos], oneAndTwo.Covers u) ∧
      valueOf oneAndTwo Field.seven (sub (.comb tripled) (.var (.loc 1 Nat.one_pos))) ≠
        valueOf oneAndTwo Field.seven
          (sub (.comb tripled) (.comb (.ofVariable (.loc 1 Nat.one_pos) Field.seven))) ∧
      rmul (.element (Field.seven.element 2)) (.comb tripled) ≠
        mul (.element (Field.seven.element 2)) (.comb tripled) := by
  have short : valueOf oneAndTwo Field.seven (sub (.comb tripled) (.var (.loc 1 Nat.one_pos))) =
      .ok (Field.seven.element 4) := rfl
  have explicit : valueOf oneAndTwo Field.seven
      (sub (.comb tripled) (.comb (.ofVariable (.loc 1 Nat.one_pos) Field.seven))) =
      .ok (Field.seven.element 5) := rfl
  have tripled_over : tripled.Over Field.seven := by
    unfold LinComb.Over
    decide
  refine ⟨⟨tripled_over, by decide⟩, ?_, nofun⟩
  rw [short, explicit]
  decide

end Operand

end Circuit

import Circuit.Proofs.Canonical.Meaning
import Circuit.Proofs.Witness.Missing

/-!
# Arithmetic of combinations

The operations on combinations never look at a value: they put rows of terms together and change coefficients.
Under every witness the result has the value that the same operation on values gives, and it has none for the
same missing variable.

* `LinComb.add_sumIn` and `LinComb.scaled_sumIn` are the sums of the results; a difference is the sum with a
  negative combination, and that is a multiple.
* `LinComb.arithmetic_denotes` says what the operations mean, and that a product is bilinear in its sides.
-/

namespace Circuit

open Witness

namespace LinComb

variable {F : Field} {x : Variable → Int} {w : Witness} {a b c : LinComb} {k : Scalar}

def Reduced (F : Field) (a : LinComb) : Prop :=
  ∀ t ∈ a.terms, t.coeff.field = F ∧ t.coeff.value < F.modulus

theorem reduced_of_over (uniform : a.Over F) : a.Reduced F := by
  intro t member
  have field := uniform t member
  exact ⟨field, field ▸ t.coeff.reduced⟩

/-! ### Operations on rows of terms -/

theorem sub_eq_add_neg (a b : LinComb) : a.sub b = a.add b.neg := rfl

theorem over_add (a_over : a.Over F) (b_over : b.Over F) : (a.add b).Over F :=
  List.forall_mem_append.2 ⟨a_over, b_over⟩

theorem over_neg (uniform : a.Over F) : a.neg.Over F :=
  List.forall_mem_map.2 uniform

theorem over_mul (uniform : a.Over F) : (a.mul k).Over F :=
  List.forall_mem_map.2 uniform

theorem vars_add (a b : LinComb) : (a.add b).vars = a.vars ++ b.vars :=
  List.map_append

theorem vars_neg (a : LinComb) : a.neg.vars = a.vars :=
  List.map_map

theorem vars_mul (a : LinComb) (k : Scalar) : (a.mul k).vars = a.vars :=
  List.map_map

/-- When every coefficient becomes a multiple of what it was, so does the sum. -/
theorem scaled_sum {f : Term → Term} {n : Int} (var : ∀ t, (f t).var = t.var)
    (scaled : ∀ t ∈ a.terms, (f t).coeff.toInt ≡ t.coeff.toInt * n [ZMOD F.modulus]) :
    sum x ⟨a.terms.map f⟩ ≡ a.sum x * n [ZMOD F.modulus] := by
  obtain ⟨ts⟩ := a
  induction ts with
  | nil => simp
  | cons t rest ih =>
    obtain ⟨here, later⟩ := List.forall_mem_cons.1 scaled
    have term : (f t).coeff.toInt * x (f t).var ≡ t.coeff.toInt * x t.var * n [ZMOD F.modulus] := by
      rw [var t, Int.mul_right_comm]
      exact here.mul_right _
    rw [List.map_cons, sum_cons, sum_cons, Int.add_mul]
    exact term.add (ih later)

theorem add_sumIn (a b : LinComb) : (a.add b).sumIn F x = a.sumIn F x + b.sumIn F x := by
  rw [sumIn, add, List.map_append, List.sum_append]
  rfl

/-- The same of what coefficients of the field add to a value there. -/
theorem scaled_sumIn {f : Term → Term} {n : Int} (uniform : a.Over F) (var : ∀ t, (f t).var = t.var)
    (field : ∀ t, (f t).coeff.field = t.coeff.field)
    (scaled : ∀ t ∈ a.terms, (f t).coeff.toInt ≡ t.coeff.toInt * n [ZMOD F.modulus]) :
    sumIn F x ⟨a.terms.map f⟩ ≡ a.sumIn F x * n [ZMOD F.modulus] := by
  have image_over : Over F ⟨a.terms.map f⟩ :=
    List.forall_mem_map.2 fun t member => (field t).trans (uniform t member)
  calc sumIn F x ⟨a.terms.map f⟩
      ≡ sum x ⟨a.terms.map f⟩ [ZMOD F.modulus] := sumIn_modEq (modular_of_over image_over) x
    _ ≡ a.sum x * n [ZMOD F.modulus] := scaled_sum var scaled
    _ ≡ a.sumIn F x * n [ZMOD F.modulus] := (sumIn_modEq (modular_of_over uniform) x).symm.mul_right n

theorem neg_sumIn (uniform : a.Over F) : a.neg.sumIn F x ≡ a.sumIn F x * -1 [ZMOD F.modulus] := by
  refine scaled_sumIn uniform (fun t => rfl) (fun t => rfl) fun t member => ?_
  have negated : t.neg.coeff.toInt ≡ -t.coeff.toInt [ZMOD t.coeff.field.modulus] :=
    t.coeff.field.value_modEq _
  rwa [uniform t member, ← Int.mul_neg_one] at negated

theorem mul_sumIn (uniform : a.Over F) :
    (a.mul k).sumIn F x ≡ a.sumIn F x * k.toInt [ZMOD F.modulus] := by
  refine scaled_sumIn uniform (fun t => rfl) (fun t => rfl) fun t member => ?_
  have scaled : (t.mul k.toInt).coeff.toInt ≡ t.coeff.toInt * k.toInt [ZMOD t.coeff.field.modulus] :=
    t.coeff.mul_modEq _
  rwa [uniform t member] at scaled

/-! ### Values of the results -/

/-- A sum is evaluated side by side. Coefficients play no part in this, whatever their fields. -/
theorem evaluate_add (a b : LinComb) (w : Witness) (F : Field) :
    (a.add b).evaluate w F = inTurn (fun x y => x.add y.toInt) (a.evaluate w F) (b.evaluate w F) := by
  rw [evaluate_outcome, evaluate_outcome, evaluate_outcome, inTurn_unlessMissing, F.add_element, vars_add,
    add_sumIn]

/-- Negation is done in the field of each coefficient, and so it needs that field to be the one of the evaluation. -/
theorem evaluate_neg (uniform : a.Over F) (w : Witness) :
    a.neg.evaluate w F = (a.evaluate w F).map Element.neg := by
  have value : F.element (a.neg.sumIn F w.value) = F.element (-a.sumIn F w.value) := by
    rw [F.element_eq_iff, ← Int.mul_neg_one]
    exact neg_sumIn uniform
  rw [evaluate_outcome, evaluate_outcome, map_unlessMissing, F.neg_element, vars_neg, value]

theorem evaluate_mul (uniform : a.Over F) (k : Scalar) (w : Witness) :
    (a.mul k).evaluate w F = (a.evaluate w F).map fun x => x.mul k.toInt := by
  have value : F.element ((a.mul k).sumIn F w.value) = F.element (a.sumIn F w.value * k.toInt) :=
    (F.element_eq_iff _ _).2 (mul_sumIn uniform)
  rw [evaluate_outcome, evaluate_outcome, map_unlessMissing, F.mul_integer, vars_mul, value]

theorem evaluate_sub (uniform : b.Over F) (a : LinComb) (w : Witness) :
    (a.sub b).evaluate w F = inTurn (fun x y => x.sub y.toInt) (a.evaluate w F) (b.evaluate w F) := by
  rw [sub_eq_add_neg, evaluate_add, evaluate_neg uniform, evaluate_outcome, evaluate_outcome,
    map_unlessMissing, inTurn_unlessMissing, inTurn_unlessMissing, F.neg_element, F.add_element,
    F.sub_element, Int.sub_eq_add_neg]

/-- The only fault is a missing value. -/
theorem evaluate_eq_error_iff {fault : Fault} :
    a.evaluate w F = .error fault ↔ ∃ v, w.FirstMissing a.vars v ∧ fault = .missingValue v := by
  rw [evaluate_outcome, unlessMissing_eq_error_iff]

end LinComb

namespace QuadComb

variable {F : Field}

/-- A sum on the left of a product has a value when the two products have, and then it is their sum. -/
theorem evaluate_add_left (a b c : LinComb) (w : Witness) (F : Field) (z : Element) :
    evaluate ⟨a.add b, c⟩ w F = .ok z ↔
      inTurn (fun x y => x.add y.toInt) (evaluate ⟨a, c⟩ w F) (evaluate ⟨b, c⟩ w F) = .ok z := by
  rw [evaluate_outcome, evaluate_outcome, evaluate_outcome, inTurn_unlessMissing, F.add_element,
    LinComb.add_sumIn, Int.add_mul, unlessMissing_eq_ok_iff, unlessMissing_eq_ok_iff]
  simp only [vars, LinComb.vars_add, List.forall_mem_append]
  tauto

theorem evaluate_add_right (a b c : LinComb) (w : Witness) (F : Field) (z : Element) :
    evaluate ⟨c, a.add b⟩ w F = .ok z ↔
      inTurn (fun x y => x.add y.toInt) (evaluate ⟨c, a⟩ w F) (evaluate ⟨c, b⟩ w F) = .ok z := by
  rw [evaluate_outcome, evaluate_outcome, evaluate_outcome, inTurn_unlessMissing, F.add_element,
    LinComb.add_sumIn, Int.mul_add, unlessMissing_eq_ok_iff, unlessMissing_eq_ok_iff]
  simp only [vars, LinComb.vars_add, List.forall_mem_append]
  tauto

theorem evaluate_mul_left {a : LinComb} (uniform : a.Over F) (k : Scalar) (c : LinComb) (w : Witness) :
    evaluate ⟨a.mul k, c⟩ w F = (evaluate ⟨a, c⟩ w F).map fun x => x.mul k.toInt := by
  have value : F.element ((a.mul k).sumIn F w.value * c.sumIn F w.value) =
      F.element (a.sumIn F w.value * c.sumIn F w.value * k.toInt) := by
    rw [F.element_eq_iff, Int.mul_right_comm]
    exact (LinComb.mul_sumIn uniform).mul_right _
  rw [evaluate_outcome, evaluate_outcome, map_unlessMissing, F.mul_integer, value, vars, vars,
    LinComb.vars_mul]

theorem evaluate_mul_right {a : LinComb} (uniform : a.Over F) (k : Scalar) (c : LinComb) (w : Witness) :
    evaluate ⟨c, a.mul k⟩ w F = (evaluate ⟨c, a⟩ w F).map fun x => x.mul k.toInt := by
  have value : F.element (c.sumIn F w.value * (a.mul k).sumIn F w.value) =
      F.element (c.sumIn F w.value * a.sumIn F w.value * k.toInt) := by
    rw [F.element_eq_iff, Int.mul_assoc]
    exact (LinComb.mul_sumIn uniform).mul_left _
  rw [evaluate_outcome, evaluate_outcome, map_unlessMissing, F.mul_integer, value, vars, vars,
    LinComb.vars_mul]

end QuadComb

/-- The arithmetic of combinations over a field is that of their values in the field: of sums, differences,
negatives and multiples, whose coefficients are reduced elements of the field again. Where a value is missing,
a sum or a difference fails as its first side does, and otherwise as its second side; a combination fails for
its first variable without a value. The value of a product is the product of the values of its sides, and it
is linear in each of them. -/
theorem LinComb.arithmetic_denotes (F : Field) (a b : LinComb) (k : Scalar) (w : Witness)
    (a_over : a.Over F) (b_over : b.Over F) :
    (∀ r ∈ [a.add b, a.sub b, a.neg, a.mul k], r.Reduced F) ∧
    ((a.add b).evaluate w F = inTurn (fun x y => x.add y.toInt) (a.evaluate w F) (b.evaluate w F) ∧
      (a.sub b).evaluate w F = inTurn (fun x y => x.sub y.toInt) (a.evaluate w F) (b.evaluate w F) ∧
      a.neg.evaluate w F = (a.evaluate w F).map Element.neg ∧
      (a.mul k).evaluate w F = (a.evaluate w F).map fun x => x.mul k.toInt) ∧
    ((∀ r ∈ [a.add b, a.sub b], ∀ fault, r.evaluate w F = .error fault ↔
        a.evaluate w F = .error fault ∨ (∃ x, a.evaluate w F = .ok x) ∧ b.evaluate w F = .error fault) ∧
      (∀ c : LinComb, ∀ fault, c.evaluate w F = .error fault ↔
        ∃ v, w.FirstMissing c.vars v ∧ fault = .missingValue v) ∧
      ∀ (c : LinComb) x, c.evaluate w F = .ok x → x.field = F) ∧
    (∀ q : QuadComb, q.evaluate w F =
      inTurn (fun x y => x.mul y.toInt) (q.left.evaluate w F) (q.right.evaluate w F)) ∧
    ∀ c : LinComb,
      (∀ z, QuadComb.evaluate ⟨a.add b, c⟩ w F = .ok z ↔
        inTurn (fun x y => x.add y.toInt) (QuadComb.evaluate ⟨a, c⟩ w F)
          (QuadComb.evaluate ⟨b, c⟩ w F) = .ok z) ∧
      (∀ z, QuadComb.evaluate ⟨c, a.add b⟩ w F = .ok z ↔
        inTurn (fun x y => x.add y.toInt) (QuadComb.evaluate ⟨c, a⟩ w F)
          (QuadComb.evaluate ⟨c, b⟩ w F) = .ok z) ∧
      QuadComb.evaluate ⟨a.mul k, c⟩ w F = (QuadComb.evaluate ⟨a, c⟩ w F).map (fun x => x.mul k.toInt) ∧
      QuadComb.evaluate ⟨c, a.mul k⟩ w F = (QuadComb.evaluate ⟨c, a⟩ w F).map (fun x => x.mul k.toInt) := by
  have sum := evaluate_add a b w F
  have difference := evaluate_sub b_over a w
  refine ⟨?_, ⟨sum, difference, evaluate_neg a_over w, evaluate_mul a_over k w⟩,
    ⟨?_, fun c fault => evaluate_eq_error_iff, fun c x evaluated => ?_⟩,
    fun q => q.evaluate_eq_inTurn w F, fun c => ⟨QuadComb.evaluate_add_left a b c w F,
      QuadComb.evaluate_add_right a b c w F, QuadComb.evaluate_mul_left a_over k c w,
      QuadComb.evaluate_mul_right a_over k c w⟩⟩
  · have negative := over_neg b_over
    simp only [List.forall_mem_cons, List.not_mem_nil, false_imp_iff, implies_true, and_true]
    exact ⟨reduced_of_over (over_add a_over b_over), reduced_of_over (over_add a_over negative),
      reduced_of_over (over_neg a_over), reduced_of_over (over_mul a_over)⟩
  · simp only [List.forall_mem_cons, List.not_mem_nil, false_imp_iff, implies_true, and_true]
    rw [sum, difference]
    exact ⟨fun fault => inTurn_eq_error_iff, fun fault => inTurn_eq_error_iff⟩
  · obtain ⟨-, rfl⟩ := (c.evaluate_eq_ok_iff w F x).1 evaluated
    rfl

/-- With four for the local variable and seven for the returned value, the sides have the values 34 and 23.
Without the returned value, the left side and the difference have none. -/
theorem LinComb.arithmetic_denotes_wavering :
    (wavering.Over Field.scalars ∧ split.Over Field.scalars) ∧
      (wavering.sub split).evaluate (.ofList [(.loc 1 Nat.one_pos, 4), (.pub 0, 7)]) Field.scalars =
        .ok (Field.scalars.element 11) ∧
      (wavering.mul (.integer (-2))).evaluate (.ofList [(.loc 1 Nat.one_pos, 4), (.pub 0, 7)]) Field.scalars =
        .ok (Field.scalars.element (-68)) ∧
      (wavering.sub split).evaluate (.ofList [(.loc 1 Nat.one_pos, 4)]) Field.scalars =
        .error (.missingValue (.pub 0)) := by
  have left : wavering.Over Field.scalars := by
    unfold Over
    decide
  have right : split.Over Field.scalars := by
    unfold Over
    decide
  obtain ⟨-, ⟨-, difference, -, multiple⟩, -⟩ := arithmetic_denotes Field.scalars wavering split (.integer (-2))
    (.ofList [(.loc 1 Nat.one_pos, 4), (.pub 0, 7)]) left right
  obtain ⟨-, -, ⟨failing, first, -⟩, -⟩ := arithmetic_denotes Field.scalars wavering split (.integer (-2))
    (.ofList [(.loc 1 Nat.one_pos, 4)]) left right
  refine ⟨⟨left, right⟩, ?_, ?_, (failing _ (by simp) _).2 (.inl ?_)⟩
  · rw [difference]
    rfl
  · rw [multiple]
    rfl
  · exact (first _ _).2 ⟨_, firstMissing?_eq_some_iff.1 rfl, rfl⟩

end Circuit

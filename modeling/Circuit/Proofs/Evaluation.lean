import Circuit.Proofs.Field.Residue
import Circuit.Program.Basic

/-!
# Evaluation as a sum

Combinations are evaluated term by term in a field, with a reduction at every step. The result is the
residue of one sum of integers. Every term adds what its coefficient makes of the value of the variable: the
product of the two integers as far as the modulus is concerned, unless the coefficient passes for an element of
the field and calculates with another modulus.

* `LinComb.evaluate_eq`: the value of a combination is the residue of `LinComb.sumIn`;
  `LinComb.evaluate_eq_ok_iff` says when there is one.
* `Constraint.isSatisfied_eq`: a constraint is an equation of such sums modulo the modulus.
* `LinComb.sumIn_modEq` and `Constraint.holdsIn_iff`: sums of products of integers do as well for coefficients
  that calculate modulo the modulus.
* `Program.unsatisfied_eq_nil_iff`: a program has no failing constraint exactly when all hold.
-/

namespace Circuit

/-- The integer of a variable: one for the constant wire, zero where a value is missing. -/
def Witness.value (w : Witness) (v : Variable) : Int :=
  if v.isOne then 1 else (w.get? v).getD 0

/-- A witness has a value for a variable. The constant wire needs none. -/
def Witness.Covers (w : Witness) (v : Variable) : Prop :=
  v ≠ .one → (w.get? v).isSome = true

/-- The sum of a combination over integers for the variables. -/
def LinComb.sum (x : Variable → Int) (a : LinComb) : Int :=
  (a.terms.map fun t => t.coeff.toInt * x t.var).sum

/-- What a term adds to a value in `F`. -/
def Term.product (F : Field) (x : Variable → Int) (t : Term) : Int :=
  ((t.coeff.coerce F).mul (F.element (x t.var)).toInt).toInt

def LinComb.sumIn (F : Field) (x : Variable → Int) (a : LinComb) : Int :=
  (a.terms.map (Term.product F x)).sum

def LinComb.Modular (F : Field) (a : LinComb) : Prop := ∀ t ∈ a.terms, t.coeff.Modular F

instance (F : Field) (a : LinComb) : Decidable (a.Modular F) :=
  inferInstanceAs (Decidable (∀ t ∈ a.terms, _))

/-- The value of the variable may be reduced before it is multiplied. -/
theorem Term.product_modEq {F : Field} {t : Term} (modular : t.coeff.Modular F) (x : Variable → Int) :
    t.product F x ≡ t.coeff.toInt * x t.var [ZMOD F.modulus] :=
  (Element.coerce_mul_modEq modular _).trans ((F.value_modEq (x t.var)).mul_left _)

/-- Where coefficients calculate modulo the modulus, only their integers count. -/
theorem LinComb.sumIn_modEq {F : Field} {a : LinComb} (modular : a.Modular F) (x : Variable → Int) :
    a.sumIn F x ≡ a.sum x [ZMOD F.modulus] := by
  obtain ⟨ts⟩ := a
  induction ts with
  | nil => exact Int.ModEq.refl _
  | cons t rest ih =>
    obtain ⟨here, later⟩ := List.forall_mem_cons.1 modular
    exact (Term.product_modEq here x).add (ih later)

theorem LinComb.element_sumIn {F : Field} {a : LinComb} (modular : a.Modular F) (x : Variable → Int) :
    F.element (a.sumIn F x) = F.element (a.sum x) :=
  (F.element_eq_iff _ _).2 (sumIn_modEq modular x)

/-- The fields of coefficients play no part in a sum. -/
theorem LinComb.sum_of_key (x : Variable → Int) {a b : LinComb} (same : a.key = b.key) :
    a.sum x = b.sum x := by
  have by_key : ∀ c : LinComb, c.sum x = (c.key.map fun k => (k.2 : Int) * x k.1).sum := by
    intro c
    rw [key, List.map_map]
    rfl
  rw [by_key, by_key, same]

namespace Witness

theorem isOne_eq_true (v : Variable) : v.isOne = true ↔ v = .one := by
  cases v <;> simp [Variable.isOne]

/-- A variable with a value is taken to a field as the residue of that value. -/
theorem element_eq (w : Witness) (F : Field) (v : Variable) (covered : w.Covers v) :
    w.element F v = .ok (F.element (w.value v)) := by
  unfold element value
  by_cases one : v.isOne = true
  · rw [if_pos one, if_pos one]
  · have some_value := covered fun h => one ((isOne_eq_true v).2 h)
    obtain ⟨x, found⟩ := Option.isSome_iff_exists.1 some_value
    rw [if_neg one, if_neg one, get, found]
    rfl

/-- A variable without a value is named by the fault. -/
theorem element_of_not_covers (w : Witness) (F : Field) (v : Variable) (missing : ¬ w.Covers v) :
    w.element F v = .error (.missingValue v) := by
  obtain ⟨different, absent⟩ := Classical.not_imp.1 missing
  have not_one : ¬ v.isOne = true := fun one => different ((isOne_eq_true v).1 one)
  have none_found : w.get? v = none := by simpa using absent
  rw [element, if_neg not_one, get, none_found]
  rfl

/-- A row of insertions, by induction: the last one for a variable counts. -/
theorem get?_foldl_insert (x : Variable → Int) (vs : List Variable) (w : Witness) (v : Variable) :
    ((vs.map fun u => (u, x u)).foldl (fun w a => w.insert a.1 a.2) w).get? v =
      if v ∈ vs then some (x v) else w.get? v := by
  induction vs generalizing w with
  | nil => simp
  | cons u rest ih =>
    rw [List.map_cons, List.foldl_cons, ih, Witness.get?_insert]
    by_cases later : v ∈ rest
    · simp [later]
    · by_cases here : v = u
      · simp [here]
      · simp [later, here]

/-- A witness made of the integers of some variables has exactly these. -/
theorem get?_ofList_map (x : Variable → Int) (vs : List Variable) (v : Variable) :
    (ofList (vs.map fun u => (u, x u))).get? v = if v ∈ vs then some (x v) else none :=
  get?_foldl_insert x vs empty v

end Witness

/-- Reducing at every step is reducing at the end. -/
theorem evaluateTerms_eq (w : Witness) (F : Field) (total : Int) (ts : List Term)
    (covered : ∀ t ∈ ts, w.Covers t.var) :
    evaluateTerms w F (F.element total) ts =
      .ok (F.element (total + (ts.map (Term.product F w.value)).sum)) := by
  -- The total so far is an integer of which only the residue was kept.
  induction ts generalizing total with
  | nil =>
    rw [List.map_nil, List.sum_nil, Int.add_zero]
    rfl
  | cons t rest ih =>
    have here := w.element_eq F t.var (covered t List.mem_cons_self)
    have later := fun n => ih n fun u member => covered u (List.mem_cons_of_mem t member)
    have step : (F.element total).add ((t.coeff.coerce F).mul (F.element (w.value t.var)).toInt).toInt =
        F.element (total + t.product F w.value) := F.add_integer total _
    simp only [evaluateTerms, here, step, later, List.map_cons, List.sum_cons, Int.add_assoc]

/-- With a value for every variable an evaluation has a result. -/
theorem LinComb.evaluate_eq (a : LinComb) (w : Witness) (F : Field)
    (covered : ∀ t ∈ a.terms, w.Covers t.var) :
    a.evaluate w F = .ok (F.element (a.sumIn F w.value)) := by
  unfold evaluate
  rw [evaluateTerms_eq w F 0 a.terms covered, Int.zero_add]
  rfl

theorem LinComb.evaluate_of_modular {a : LinComb} {w : Witness} {F : Field} (modular : a.Modular F)
    (covered : ∀ t ∈ a.terms, w.Covers t.var) : a.evaluate w F = .ok (F.element (a.sum w.value)) := by
  rw [a.evaluate_eq w F covered, element_sumIn modular]

/-- The first variable without a value stops an evaluation. -/
theorem evaluateTerms_of_missing (w : Witness) (F : Field) (total : Element) (before after : List Term)
    (t : Term) (covered : ∀ u ∈ before, w.Covers u.var) (missing : ¬ w.Covers t.var) :
    evaluateTerms w F total (before ++ t :: after) = .error (.missingValue t.var) := by
  induction before generalizing total with
  | nil => simp only [List.nil_append, evaluateTerms, w.element_of_not_covers F t.var missing]
  | cons u rest ih =>
    obtain ⟨here, later⟩ := List.forall_mem_cons.1 covered
    simp only [List.cons_append, evaluateTerms, w.element_eq F u.var here, ih _ later]

/-- Where some variable has no value, there is a first one. -/
theorem exists_first_missing (w : Witness) (ts : List Term) (missing : ¬ ∀ t ∈ ts, w.Covers t.var) :
    ∃ before t after, ts = before ++ t :: after ∧ (∀ u ∈ before, w.Covers u.var) ∧
      ¬ w.Covers t.var := by
  induction ts with
  | nil => exact absurd (fun _ member => absurd member List.not_mem_nil) missing
  | cons u rest ih =>
    by_cases here : w.Covers u.var
    · have later : ¬ ∀ t ∈ rest, w.Covers t.var := fun all =>
        missing (List.forall_mem_cons.2 ⟨here, all⟩)
      obtain ⟨before, t, after, rfl, covered, absent⟩ := ih later
      exact ⟨u :: before, t, after, rfl, List.forall_mem_cons.2 ⟨here, covered⟩, absent⟩
    · exact ⟨[], u, rest, rfl, fun _ member => absurd member List.not_mem_nil, here⟩

/-- Without one of them it has none. -/
theorem LinComb.evaluate_of_missing (a : LinComb) (w : Witness) (F : Field)
    (missing : ¬ ∀ t ∈ a.terms, w.Covers t.var) :
    ∃ t ∈ a.terms, ¬ w.Covers t.var ∧ a.evaluate w F = .error (.missingValue t.var) := by
  obtain ⟨before, t, after, split, covered, absent⟩ := exists_first_missing w a.terms missing
  refine ⟨t, split ▸ List.mem_append_cons_self, absent, ?_⟩
  rw [evaluate, split, evaluateTerms_of_missing w F _ before after t covered absent]

/-- A combination has a value exactly when its variables have, and then it is the residue of the
sum. -/
theorem LinComb.evaluate_eq_ok_iff (a : LinComb) (w : Witness) (F : Field) (x : Element) :
    a.evaluate w F = .ok x ↔
      (∀ t ∈ a.terms, w.Covers t.var) ∧ F.element (a.sumIn F w.value) = x := by
  constructor
  · intro evaluated
    have covered : ∀ t ∈ a.terms, w.Covers t.var := by
      by_contra missing
      obtain ⟨t, -, -, stopped⟩ := a.evaluate_of_missing w F missing
      rw [stopped] at evaluated
      cases evaluated
    rw [a.evaluate_eq w F covered] at evaluated
    exact ⟨covered, Except.ok.inj evaluated⟩
  · intro ⟨covered, value⟩
    rw [a.evaluate_eq w F covered, value]

def Constraint.Holds (x : Variable → Int) (F : Field) (c : Constraint) : Prop :=
  c.quad.left.sum x * c.quad.right.sum x ≡ c.lin.sum x [ZMOD F.modulus]

instance (x : Variable → Int) (F : Field) (c : Constraint) : Decidable (c.Holds x F) :=
  inferInstanceAs (Decidable (_ = _))

/-- The equation with what the terms add to a value in `F`. -/
def Constraint.HoldsIn (x : Variable → Int) (F : Field) (c : Constraint) : Prop :=
  c.quad.left.sumIn F x * c.quad.right.sumIn F x ≡ c.lin.sumIn F x [ZMOD F.modulus]

instance (x : Variable → Int) (F : Field) (c : Constraint) : Decidable (c.HoldsIn x F) :=
  inferInstanceAs (Decidable (_ = _))

def Constraint.Modular (F : Field) (c : Constraint) : Prop := ∀ a ∈ c.combs, a.Modular F

/-- The integers of coefficients decide, where these calculate modulo the modulus. -/
theorem Constraint.holdsIn_iff {F : Field} {c : Constraint} (modular : c.Modular F) (x : Variable → Int) :
    c.HoldsIn x F ↔ c.Holds x F := by
  obtain ⟨left, right, lin⟩ := (c.forall_mem_combs _).1 fun a comb => LinComb.sumIn_modEq (modular a comb) x
  exact ⟨fun h => ((left.mul right).symm.trans h).trans lin, fun h => ((left.mul right).trans h).trans lin.symm⟩

/-- Twice the greatest scalar, over the base field. The factor is a scalar too, and reduces the product by its own
modulus. -/
example :
    let c : Constraint := ⟨⟨⟨[⟨.loc 1 Nat.one_pos, Field.scalars.element 2⟩]⟩, .one Field.base⟩,
      .ofVariable (.loc 2 Nat.two_pos) Field.base, none⟩
    let x (v : Variable) : Int :=
      if v = .loc 1 Nat.one_pos then Field.scalars.maxValue
      else if v = .one then 1 else 2 * Field.scalars.maxValue
    c.Holds x Field.base ∧ ¬ c.HoldsIn x Field.base := by
  decide

def Program.Modular (F : Field) (p : Program) : Prop := ∀ c ∈ p.constraints, c.Modular F

end Circuit

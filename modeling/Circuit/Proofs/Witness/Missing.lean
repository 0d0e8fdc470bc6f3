import Circuit.Proofs.Evaluation

/-!
# The first missing value

Evaluation visits variables in a fixed order, never skips one, and stops at the first that has no value. What
an evaluation comes to is therefore told by two things: the row of variables that it visits, and the value
that it has when none is missing.

* `Witness.firstMissing?` looks for the first variable without a value, which `Witness.FirstMissing` describes.
* `Witness.unlessMissing` is a value unless a variable is missing. Of two evaluations in turn, the second one
  matters when the first has a value: `inTurn_unlessMissing` puts their rows of variables together.
* `LinComb.evaluate_outcome`, `QuadComb.evaluate_outcome`, `Constraint.isSatisfied_outcome` and
  `Program.unsatisfiedFrom_outcome` tell the evaluations in these terms.
-/

namespace Circuit

section InTurn

variable {α β γ : Type}

/-- Two evaluations, one after the other. -/
def inTurn (f : α → β → γ) (x : Except Fault α) (y : Except Fault β) : Except Fault γ :=
  x.bind fun a => y.map (f a)

variable {f : α → β → γ} {x : Except Fault α} {y : Except Fault β}

/-- The fault of the first evaluation comes first. -/
theorem inTurn_eq_error_iff {fault : Fault} :
    inTurn f x y = .error fault ↔ x = .error fault ∨ (∃ a, x = .ok a) ∧ y = .error fault := by
  cases x <;> cases y <;> simp [inTurn, Except.bind, Except.map]

end InTurn

namespace Witness

instance (w : Witness) (v : Variable) : Decidable (w.Covers v) :=
  inferInstanceAs (Decidable (_ → _))

/-- A variable is the first of a row without a value. -/
def FirstMissing (w : Witness) (vs : List Variable) (v : Variable) : Prop :=
  ∃ before after, vs = before ++ v :: after ∧ (∀ u ∈ before, w.Covers u) ∧ ¬ w.Covers v

/-- The first variable of a row without a value. -/
def firstMissing? (w : Witness) (vs : List Variable) : Option Variable :=
  vs.find? fun v => decide (¬ w.Covers v)

/-- A value, unless one of some variables has none. -/
def unlessMissing {α : Type} (w : Witness) (vs : List Variable) (x : α) : Except Fault α :=
  match w.firstMissing? vs with
  | some v => .error (.missingValue v)
  | none => .ok x

variable {α β γ : Type} {w : Witness}

/-- The search finds what the description says. -/
theorem firstMissing?_eq_some_iff {vs : List Variable} {v : Variable} :
    w.firstMissing? vs = some v ↔ w.FirstMissing vs v := by
  unfold firstMissing? FirstMissing
  rw [List.find?_eq_some_iff_append]
  simp only [decide_eq_true_eq, Bool.not_eq_true', decide_eq_false_iff_not, not_not]
  constructor
  · rintro ⟨missing, before, after, split, covered⟩
    exact ⟨before, after, split, covered, missing⟩
  · rintro ⟨before, after, split, covered, missing⟩
    exact ⟨missing, before, after, split, covered⟩

theorem firstMissing?_eq_none_iff {vs : List Variable} :
    w.firstMissing? vs = none ↔ ∀ v ∈ vs, w.Covers v := by
  simp [firstMissing?]

theorem unlessMissing_eq_ok_iff {vs : List Variable} {x y : α} :
    w.unlessMissing vs x = .ok y ↔ (∀ v ∈ vs, w.Covers v) ∧ x = y := by
  unfold unlessMissing
  rw [← firstMissing?_eq_none_iff]
  cases w.firstMissing? vs <;> simp

theorem unlessMissing_eq_error_iff {vs : List Variable} {x : α} {fault : Fault} :
    w.unlessMissing vs x = .error fault ↔ ∃ v, w.FirstMissing vs v ∧ fault = .missingValue v := by
  unfold unlessMissing
  simp only [← firstMissing?_eq_some_iff]
  cases w.firstMissing? vs <;> simp [eq_comm]

theorem unlessMissing_of_covered {vs : List Variable} (covered : ∀ v ∈ vs, w.Covers v) (x : α) :
    w.unlessMissing vs x = .ok x :=
  unlessMissing_eq_ok_iff.2 ⟨covered, rfl⟩

/-- Values are compared only where none is missing. -/
theorem unlessMissing_inj {vs : List Variable} {x y : α} :
    w.unlessMissing vs x = w.unlessMissing vs y ↔ ((∀ v ∈ vs, w.Covers v) → x = y) := by
  unfold unlessMissing
  rw [← firstMissing?_eq_none_iff]
  cases w.firstMissing? vs <;> simp

theorem map_unlessMissing (f : α → β) (vs : List Variable) (x : α) :
    (w.unlessMissing vs x).map f = w.unlessMissing vs (f x) := by
  unfold unlessMissing
  cases w.firstMissing? vs <;> rfl

/-- The second row of variables is visited when nothing is missing from the first. -/
theorem inTurn_unlessMissing (f : α → β → γ) (vs us : List Variable) (x : α) (y : β) :
    inTurn f (w.unlessMissing vs x) (w.unlessMissing us y) = w.unlessMissing (vs ++ us) (f x y) := by
  unfold inTurn unlessMissing firstMissing?
  rw [List.find?_append]
  cases vs.find? fun v => decide (¬ w.Covers v) with
  | some v => rfl
  | none => cases us.find? fun v => decide (¬ w.Covers v) <;> rfl

end Witness

open Witness

/-- A combination visits all its variables in order, also those with a coefficient that is zero. -/
theorem LinComb.evaluate_outcome (a : LinComb) (w : Witness) (F : Field) :
    a.evaluate w F = w.unlessMissing a.vars (F.element (a.sumIn F w.value)) := by
  cases found : w.firstMissing? a.vars with
  | none =>
    have covered := firstMissing?_eq_none_iff.1 found
    rw [unlessMissing_of_covered covered, a.evaluate_eq w F (List.forall_mem_map.1 covered)]
  | some v =>
    obtain ⟨before, after, split, covered, missing⟩ := firstMissing?_eq_some_iff.1 found
    obtain ⟨first, rest, terms, rfl, later⟩ := List.map_eq_append_iff.1 split
    obtain ⟨t, others, rfl, rfl, rfl⟩ := List.map_eq_cons_iff.1 later
    have stopped := evaluateTerms_of_missing w F (F.element 0) first others t
      (List.forall_mem_map.1 covered) missing
    rw [evaluate, terms, stopped, unlessMissing, found]

namespace QuadComb

theorem evaluate_eq_inTurn (q : QuadComb) (w : Witness) (F : Field) :
    q.evaluate w F = inTurn (fun x y => x.mul y.toInt) (q.left.evaluate w F) (q.right.evaluate w F) := by
  unfold evaluate
  cases q.left.evaluate w F <;> cases q.right.evaluate w F <;> rfl

def vars (q : QuadComb) : List Variable := q.left.vars ++ q.right.vars

theorem evaluate_outcome (q : QuadComb) (w : Witness) (F : Field) :
    q.evaluate w F =
      w.unlessMissing q.vars (F.element (q.left.sumIn F w.value * q.right.sumIn F w.value)) := by
  rw [evaluate_eq_inTurn, LinComb.evaluate_outcome, LinComb.evaluate_outcome, inTurn_unlessMissing,
    F.mul_element]
  rfl

end QuadComb

namespace Constraint

def vars (c : Constraint) : List Variable := c.quad.vars ++ c.lin.vars

/-- A constraint is compared only when both sides have values; the left side is visited first. -/
theorem isSatisfied_outcome (c : Constraint) (w : Witness) (F : Field) :
    c.isSatisfied w F = w.unlessMissing c.vars (decide (c.HoldsIn w.value F)) := by
  have compared : c.isSatisfied w F =
      inTurn (fun x y => decide (x.value = y.value)) (c.quad.evaluate w F) (c.lin.evaluate w F) := by
    unfold isSatisfied
    cases c.quad.evaluate w F <;> cases c.lin.evaluate w F <;> rfl
  rw [compared, QuadComb.evaluate_outcome, LinComb.evaluate_outcome, inTurn_unlessMissing]
  exact congrArg _ (decide_eq_decide.2 (F.value_eq_iff _ _))

end Constraint

namespace Statement

/-- The variables that a check of the statement visits. -/
def visited : Statement → List Variable
  | .constraint c => c.vars
  | _ => []

/-- A constraint that fails, with its number. -/
def failure? (x : Variable → Int) (F : Field) : Statement × Nat → Option (Nat × Constraint)
  | (.constraint c, n) => if c.HoldsIn x F then none else some (n, c)
  | _ => none

theorem failure?_eq_some_iff {x : Variable → Int} {F : Field} {s : Statement × Nat} {n : Nat}
    {c : Constraint} : failure? x F s = some (n, c) ↔ s = (.constraint c, n) ∧ ¬ c.HoldsIn x F := by
  obtain ⟨s, m⟩ := s
  cases s with
  | constraint d =>
    by_cases holds : d.HoldsIn x F
    · simp only [failure?, if_pos holds, Prod.mk.injEq, constraint.injEq]
      constructor
      · nofun
      · rintro ⟨⟨rfl, -⟩, fails⟩
        exact absurd holds fails
    · simp only [failure?, if_neg holds, Option.some.injEq, Prod.mk.injEq, constraint.injEq]
      constructor
      · rintro ⟨rfl, rfl⟩
        exact ⟨⟨rfl, rfl⟩, holds⟩
      · rintro ⟨⟨rfl, rfl⟩, -⟩
        exact ⟨rfl, rfl⟩
  | _ => exact ⟨nofun, fun ⟨equal, _⟩ => nomatch equal⟩

theorem failure?_of_none {x : Variable → Int} {F : Field} {s : Statement} {n : Nat} (none : s.constraint? = none) :
    failure? x F (s, n) = .none := by
  cases s <;> first | rfl | cases none

theorem failure?_of_some {x : Variable → Int} {F : Field} {s : Statement} {n : Nat} {c : Constraint}
    (some : s.constraint? = .some c) :
    failure? x F (s, n) = if c.HoldsIn x F then .none else .some (n, c) := by
  cases s with
  | constraint d =>
    cases some
    rfl
  | _ => cases some

/-- The failures of a row of statements are constraints of the row, each with its place. -/
theorem mem_failures_iff {x : Variable → Int} {F : Field} {ss : List Statement} {n : Nat} {c : Constraint} :
    (n, c) ∈ ss.zipIdx.filterMap (failure? x F) ↔ ss[n]? = some (.constraint c) ∧ ¬ c.HoldsIn x F := by
  simp only [List.mem_filterMap, Prod.exists, List.mem_zipIdx_iff_getElem?, failure?_eq_some_iff, Prod.mk.injEq]
  constructor
  · rintro ⟨s, m, here, ⟨rfl, rfl⟩, fails⟩
    exact ⟨here, fails⟩
  · rintro ⟨here, fails⟩
    exact ⟨_, n, here, ⟨rfl, rfl⟩, fails⟩

theorem failures_ascending (x : Variable → Int) (F : Field) (ss : List Statement) :
    (ss.zipIdx.filterMap (failure? x F)).Pairwise fun f g => f.1 < g.1 := by
  have numbers : ss.zipIdx.Pairwise fun s t => s.2 < t.2 := by
    rw [← List.pairwise_map (f := Prod.snd), List.zipIdx_map_snd]
    exact List.pairwise_lt_range'
  refine List.pairwise_filterMap.2 (numbers.imp fun less f here g there => ?_)
  obtain ⟨rfl, -⟩ := failure?_eq_some_iff.1 here
  obtain ⟨rfl, -⟩ := failure?_eq_some_iff.1 there
  exact less

end Statement

/-- Every constraint is visited, in order and with all its variables: no failure ends the check. -/
theorem Program.unsatisfiedFrom_outcome (w : Witness) (F : Field) (n : Nat) (ss : List Statement) :
    unsatisfiedFrom w F n ss =
      w.unlessMissing (ss.flatMap Statement.visited)
        ((ss.zipIdx n).filterMap (Statement.failure? w.value F)) := by
  induction ss generalizing n with
  | nil => rfl
  | cons s rest ih =>
    rw [List.flatMap_cons, List.zipIdx_cons]
    cases s with
    | constraint c =>
      have listed : unsatisfiedFrom w F n (.constraint c :: rest) =
          inTurn (fun satisfied failed => if satisfied then failed else (n, c) :: failed)
            (c.isSatisfied w F) (unsatisfiedFrom w F (n + 1) rest) := by
        simp only [unsatisfiedFrom, Statement.constraint?]
        cases c.isSatisfied w F <;> rfl
      rw [listed, ih (n + 1), Constraint.isSatisfied_outcome, inTurn_unlessMissing]
      by_cases holds : c.HoldsIn w.value F
      · simp only [Statement.visited, Statement.failure?, List.filterMap_cons, holds, decide_true, if_true]
      · simp only [Statement.visited, Statement.failure?, List.filterMap_cons, holds, decide_false,
          Bool.false_eq_true, if_false]
    | _ =>
      simp only [unsatisfiedFrom, Statement.constraint?, ih (n + 1), Statement.visited, List.nil_append,
        Statement.failure?, List.filterMap_cons]

end Circuit

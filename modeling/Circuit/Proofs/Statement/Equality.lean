import Circuit.Proofs.Json.Equality
import Circuit.Proofs.Statement.Flatten

/-!
# Equality of statements

Equality is written for each kind of statement, and goes down into blocks. It is an equivalence as far as
the names and texts that it compares are proper values, and taking statements out of their blocks
respects it.

* `Statement.same_self`, `Statement.same_symm`, `Statement.same_trans`: the equivalence, by induction on the
  nesting of blocks.
* `Statement.flattenAll_same`: rows that are equal are equal outside of their blocks.
-/

namespace Circuit

/-- The names and texts that equality compares in a statement outside of blocks are proper values. -/
def Statement.OwnProper : Statement → Prop
  | .directive d => d.solver.name.Proper ∧ Json.AllProper d.solver.parameters
  | .log l => l.format.Proper ∧ ∀ g ∈ l.groups, g.1.Proper
  | _ => True

/-- The names and texts of a statement that equality compares are proper values, at every depth. -/
def Statement.Proper (s : Statement) : Prop := ∀ t ∈ s.flatten, t.OwnProper

/-- The names and texts of a program that equality compares are proper values, at every depth. -/
def Program.Proper (p : Program) : Prop := ∀ t ∈ p.clean.statements, t.OwnProper

/-! ### One statement outside of blocks -/

def QuadComb.key (q : QuadComb) : List (Variable × Nat) × List (Variable × Nat) :=
  (q.left.key, q.right.key)

theorem QuadComb.same_iff (p q : QuadComb) : p.same q = true ↔ p.key = q.key := by
  simp [same, LinComb.same, key]

theorem QuadComb.sameAll_iff (ps qs : List QuadComb) :
    sameAll ps qs = true ↔ ps.map key = qs.map key := by
  induction ps generalizing qs with
  | nil => cases qs <;> simp [sameAll]
  | cons p rest ih => cases qs <;> simp [sameAll, same_iff, ih]

theorem Constraint.same_iff (c d : Constraint) :
    c.same d = true ↔ c.quad.left.key = d.quad.left.key ∧ c.quad.right.key = d.quad.right.key ∧
      c.lin.key = d.lin.key := by
  simp only [same, QuadComb.same, LinComb.same, Bool.and_eq_true, decide_eq_true_eq, and_assoc]

namespace Directive

theorem same_iff (d e : Directive) :
    d.same e = true ↔ d.inputs.map QuadComb.key = e.inputs.map QuadComb.key ∧ d.outputs = e.outputs ∧
      d.solver.name.same e.solver.name = true ∧
      Json.sameItems d.solver.parameters e.solver.parameters = true := by
  simp only [same, Solver.same, QuadComb.sameAll_iff, Bool.and_eq_true, decide_eq_true_eq, and_assoc]

theorem same_self {d : Directive} (proper : (Statement.directive d).OwnProper) : d.same d = true :=
  (same_iff d d).2 ⟨rfl, rfl, Json.same_self _ proper.1, Json.sameItems_self _ proper.2⟩

theorem same_symm {d e : Directive} (proper : (Statement.directive d).OwnProper)
    (equal : d.same e = true) : e.same d = true := by
  obtain ⟨inputs, outputs, name, parameters⟩ := (same_iff d e).1 equal
  exact (same_iff e d).2 ⟨inputs.symm, outputs.symm, Json.same_symm _ _ proper.1 name,
    Json.sameItems_symm _ _ proper.2 parameters⟩

theorem same_trans {d e f : Directive} (first : d.same e = true) (second : e.same f = true) :
    d.same f = true := by
  obtain ⟨inputs, outputs, name, parameters⟩ := (same_iff d e).1 first
  obtain ⟨inputs', outputs', name', parameters'⟩ := (same_iff e f).1 second
  exact (same_iff d f).2 ⟨inputs.trans inputs', outputs.trans outputs',
    Json.same_trans _ _ _ name name', Json.sameItems_trans _ _ _ parameters parameters'⟩

end Directive

namespace Log

theorem sameGroups_self {gs : List (Json × List LinComb)} (proper : ∀ g ∈ gs, g.1.Proper) :
    sameGroups gs gs = true := by
  induction gs with
  | nil => rfl
  | cons g rest ih =>
    obtain ⟨here, later⟩ := List.forall_mem_cons.1 proper
    simp [sameGroups, Json.same_self _ here, ih later]

theorem sameGroups_symm {gs hs : List (Json × List LinComb)} (proper : ∀ g ∈ gs, g.1.Proper)
    (equal : sameGroups gs hs = true) : sameGroups hs gs = true := by
  induction gs generalizing hs with
  | nil => cases hs <;> first | rfl | cases equal
  | cons g rest ih =>
    cases hs with
    | nil => cases equal
    | cons h others =>
      obtain ⟨here, later⟩ := List.forall_mem_cons.1 proper
      simp only [sameGroups, Bool.and_eq_true, decide_eq_true_eq] at equal ⊢
      exact ⟨⟨Json.same_symm _ _ here equal.1.1, equal.1.2.symm⟩, ih later equal.2⟩

theorem sameGroups_trans {gs hs ks : List (Json × List LinComb)} (first : sameGroups gs hs = true)
    (second : sameGroups hs ks = true) : sameGroups gs ks = true := by
  induction gs generalizing hs ks with
  | nil => cases hs <;> first | exact second | cases first
  | cons g rest ih =>
    cases hs with
    | nil => cases first
    | cons h others =>
      cases ks with
      | nil => cases second
      | cons k more =>
        simp only [sameGroups, Bool.and_eq_true, decide_eq_true_eq] at first second ⊢
        exact ⟨⟨Json.same_trans _ _ _ first.1.1 second.1.1, first.1.2.trans second.1.2⟩,
          ih first.2 second.2⟩

theorem same_iff (l m : Log) :
    l.same m = true ↔ l.format.same m.format = true ∧ sameGroups l.groups m.groups = true := by
  rw [same, Bool.and_eq_true]

theorem same_self {l : Log} (proper : (Statement.log l).OwnProper) : l.same l = true :=
  (same_iff l l).2 ⟨Json.same_self _ proper.1, sameGroups_self proper.2⟩

theorem same_symm {l m : Log} (proper : (Statement.log l).OwnProper) (equal : l.same m = true) :
    m.same l = true := by
  obtain ⟨format, groups⟩ := (same_iff l m).1 equal
  exact (same_iff m l).2 ⟨Json.same_symm _ _ proper.1 format, sameGroups_symm proper.2 groups⟩

theorem same_trans {l m n : Log} (first : l.same m = true) (second : m.same n = true) :
    l.same n = true := by
  obtain ⟨format, groups⟩ := (same_iff l m).1 first
  obtain ⟨format', groups'⟩ := (same_iff m n).1 second
  exact (same_iff l n).2 ⟨Json.same_trans _ _ _ format format', sameGroups_trans groups groups'⟩

end Log

/-! ### Statements and rows of statements -/

namespace Statement

theorem sameAll_cons (s t : Statement) (ss ts : List Statement) :
    sameAll (s :: ss) (t :: ts) = true ↔ s.same t = true ∧ sameAll ss ts = true := by
  rw [sameAll, Bool.and_eq_true]

mutual

/-- Equality is reflexive on names and texts that are proper, and everywhere else without a condition. -/
theorem same_self : ∀ s : Statement, s.Proper → s.same s = true
  | .constraint c, _ => (Constraint.same_iff c c).2 ⟨rfl, rfl, rfl⟩
  | .directive _, proper => Directive.same_self ((forall_mem_flatten rfl).1 proper)
  | .log _, proper => Log.same_self ((forall_mem_flatten rfl).1 proper)
  | .block body, proper => sameAll_self body proper

theorem sameAll_self : ∀ ss : List Statement, (∀ t ∈ flattenAll ss, t.OwnProper) →
    sameAll ss ss = true
  | [], _ => rfl
  | s :: rest, proper => by
      rw [forall_mem_flattenAll_cons] at proper
      exact (sameAll_cons s s rest rest).2 ⟨same_self s proper.1, sameAll_self rest proper.2⟩

end

mutual

-- What is assumed of a block is assumed of what it holds outside of blocks, as in `same_self`.
/-- The cases are those of two statements of one kind; statements of different kinds are never equal. -/
theorem same_symm : ∀ s t : Statement, s.Proper → s.same t = true → t.same s = true
  | .constraint c, .constraint d, _, equal => by
      obtain ⟨left, right, lin⟩ := (Constraint.same_iff c d).1 equal
      exact (Constraint.same_iff d c).2 ⟨left.symm, right.symm, lin.symm⟩
  | .directive _, .directive _, proper, equal =>
      Directive.same_symm ((forall_mem_flatten rfl).1 proper) equal
  | .log _, .log _, proper, equal => Log.same_symm ((forall_mem_flatten rfl).1 proper) equal
  | .block body, .block other, proper, equal => sameAll_symm body other proper equal

theorem sameAll_symm : ∀ ss ts : List Statement, (∀ t ∈ flattenAll ss, t.OwnProper) →
    sameAll ss ts = true → sameAll ts ss = true
  | [], [], _, _ => rfl
  | s :: ss, t :: ts, proper, equal => by
      rw [forall_mem_flattenAll_cons] at proper
      obtain ⟨first, others⟩ := (sameAll_cons s t ss ts).1 equal
      exact (sameAll_cons t s ts ss).2
        ⟨same_symm s t proper.1 first, sameAll_symm ss ts proper.2 others⟩

end

mutual

/-- Transitivity needs no condition, as equality of data does not. -/
theorem same_trans : ∀ s t u : Statement, s.same t = true → t.same u = true → s.same u = true
  | .constraint c, .constraint d, .constraint e, first, second => by
      obtain ⟨left, right, lin⟩ := (Constraint.same_iff c d).1 first
      obtain ⟨left', right', lin'⟩ := (Constraint.same_iff d e).1 second
      exact (Constraint.same_iff c e).2 ⟨left.trans left', right.trans right', lin.trans lin'⟩
  | .directive _, .directive _, .directive _, first, second => Directive.same_trans first second
  | .log _, .log _, .log _, first, second => Log.same_trans first second
  | .block xs, .block ys, .block zs, first, second => sameAll_trans xs ys zs first second

theorem sameAll_trans : ∀ ss ts us : List Statement, sameAll ss ts = true → sameAll ts us = true →
    sameAll ss us = true
  | [], [], [], _, _ => rfl
  | s :: ss, t :: ts, u :: us, first, second => by
      rw [sameAll_cons] at first second ⊢
      exact ⟨same_trans s t u first.1 second.1, sameAll_trans ss ts us first.2 second.2⟩

end

/-! ### Outside of blocks -/

theorem sameAll_append {ss ts us vs : List Statement} (first : sameAll ss ts = true)
    (second : sameAll us vs = true) : sameAll (ss ++ us) (ts ++ vs) = true := by
  induction ss generalizing ts with
  | nil => cases ts <;> first | exact second | cases first
  | cons s rest ih =>
    cases ts with
    | nil => cases first
    | cons t others =>
      rw [List.cons_append, List.cons_append, sameAll_cons]
      rw [sameAll_cons] at first
      exact ⟨first.1, ih first.2⟩

mutual

/-- Equal statements have equal statements outside of blocks. -/
theorem flatten_same : ∀ s t : Statement, s.same t = true → sameAll s.flatten t.flatten = true
  | .constraint c, .constraint d, equal => by
      rw [flatten_of_not_block rfl, flatten_of_not_block rfl, sameAll_cons]
      exact ⟨equal, rfl⟩
  | .directive d, .directive e, equal => by
      rw [flatten_of_not_block rfl, flatten_of_not_block rfl, sameAll_cons]
      exact ⟨equal, rfl⟩
  | .log l, .log m, equal => by
      rw [flatten_of_not_block rfl, flatten_of_not_block rfl, sameAll_cons]
      exact ⟨equal, rfl⟩
  | .block body, .block other, equal => by
      rw [flatten, flatten]
      exact flattenAll_same body other equal

/-- Equal rows are equal row by row when their blocks are taken apart. -/
theorem flattenAll_same : ∀ ss ts : List Statement, sameAll ss ts = true →
    sameAll (flattenAll ss) (flattenAll ts) = true
  | [], [], _ => rfl
  | s :: ss, t :: ts, equal => by
      rw [sameAll_cons] at equal
      rw [flattenAll, flattenAll]
      exact sameAll_append (flatten_same s t equal.1) (flattenAll_same ss ts equal.2)

end

end Statement

end Circuit

import Circuit.Proofs.Codec.RoundTrip
import Circuit.Proofs.R1cs.Content
import Circuit.Proofs.R1cs.Outcome
import Circuit.Proofs.Witness.Missing

/-!
# Equal programs

Equality of programs sees neither the tags of constraints nor the fields of coefficients, and compares
names and texts as JSON values. Hardly anything that a program is used for sees more. A check does, where a
coefficient passes for an element of the field and calculates with another modulus; and a count of returned values
may be equal to an integer and still be none.

* `Program.Interchangeable` lists the uses: what is written, counted, cleaned, shown and checked.
* `Program.same_interchangeable`: equality is an equivalence, and equal programs are interchangeable.
* `Program.same_told_apart` has two pairs of equal programs that are not.
-/

namespace Circuit

open R1cs

/-! ### Checking -/

theorem LinComb.vars_of_key {a b : LinComb} (same : a.key = b.key) : a.vars = b.vars := by
  have by_key : ∀ c : LinComb, c.vars = c.key.map Prod.fst := fun c => by
    rw [key, List.map_map]
    rfl
  rw [by_key, by_key, same]

namespace Constraint

variable {c d : Constraint}

theorem vars_of_same (same : c.same d = true) : c.vars = d.vars := by
  obtain ⟨left, right, lin⟩ := (same_iff c d).1 same
  unfold vars QuadComb.vars
  rw [LinComb.vars_of_key left, LinComb.vars_of_key right, LinComb.vars_of_key lin]

/-- The sums of integers are the same for equal constraints. -/
theorem holds_of_same (same : c.same d = true) (x : Variable → Int) (F : Field) : c.Holds x F ↔ d.Holds x F := by
  obtain ⟨left, right, lin⟩ := (same_iff c d).1 same
  unfold Holds
  rw [LinComb.sum_of_key x left, LinComb.sum_of_key x right, LinComb.sum_of_key x lin]

/-- The fields of coefficients play no part in a check as long as all of them calculate modulo the modulus. -/
theorem holdsIn_of_same {F : Field} (same : c.same d = true) (c_modular : c.Modular F) (d_modular : d.Modular F)
    (x : Variable → Int) : c.HoldsIn x F ↔ d.HoldsIn x F := by
  rw [holdsIn_iff c_modular, holdsIn_iff d_modular, holds_of_same same]

end Constraint

/-! ### The constraints of equal rows -/

namespace Statement

/-- Equal statements are both constraints, and equal ones, or neither is one. -/
theorem constraint?_same {s t : Statement} (equal : s.same t = true) :
    (s.constraint? = none ∧ t.constraint? = none) ∨
      ∃ c d, s.constraint? = some c ∧ t.constraint? = some d ∧ c.same d = true := by
  cases s <;> cases t <;> first | exact .inl ⟨rfl, rfl⟩ | exact .inr ⟨_, _, rfl, rfl, equal⟩ | cases equal

theorem constraints_same {ss ts : List Statement} (equal : sameAll ss ts = true) :
    Constraint.SameAll (ss.filterMap constraint?) (ts.filterMap constraint?) := by
  induction ss generalizing ts with
  | nil => cases ts <;> first | exact .nil | cases equal
  | cons s rest ih =>
    cases ts with
    | nil => cases equal
    | cons t others =>
      obtain ⟨first, later⟩ := (sameAll_cons s t rest others).1 equal
      rcases constraint?_same first with ⟨left, right⟩ | ⟨c, d, left, right, same⟩
      · rw [List.filterMap_cons_none left, List.filterMap_cons_none right]
        exact ih later
      · rw [List.filterMap_cons_some left, List.filterMap_cons_some right]
        exact .cons same (ih later)

end Statement

/-- Counts are compared as numbers, so that a truth value equals the number that it stands for. -/
theorem Interface.same_iff (i j : Interface) :
    i.same j = true ↔ i.parameters = j.parameters ∧ i.returnCount.toNat = j.returnCount.toNat := by
  simp [same]

namespace Program

theorem same_iff (p q : Program) :
    p.same q = true ↔
      p.interface.same q.interface = true ∧ Statement.sameAll p.statements q.statements = true := by
  rw [same, Bool.and_eq_true]

theorem same_self {p : Program} (proper : p.Proper) : p.same p = true :=
  (same_iff p p).2 ⟨(Interface.same_iff _ _).2 ⟨rfl, rfl⟩, Statement.sameAll_self p.statements proper⟩

/-- Two checks report the same places, or lack the value of the same variable. -/
def SameReport (x y : Except Fault (List (Nat × Constraint))) : Prop :=
  (∃ failed failed', x = .ok failed ∧ y = .ok failed' ∧ failed.map (·.1) = failed'.map (·.1)) ∨
    ∃ v, x = .error (.missingValue v) ∧ y = .error (.missingValue v)

/-- Equal rows are visited in the same order. -/
theorem visited_same {ss ts : List Statement} (equal : Statement.sameAll ss ts = true) :
    ss.flatMap Statement.visited = ts.flatMap Statement.visited := by
  induction ss generalizing ts with
  | nil => cases ts <;> first | rfl | cases equal
  | cons s rest ih =>
    cases ts with
    | nil => cases equal
    | cons t others =>
      obtain ⟨first, later⟩ := (Statement.sameAll_cons s t rest others).1 equal
      have here : s.visited = t.visited := by
        cases s <;> cases t <;> first | exact Constraint.vars_of_same first | rfl | cases first
      rw [List.flatMap_cons, List.flatMap_cons, here, ih later]

theorem failures_same {F : Field} {ss ts : List Statement} (equal : Statement.sameAll ss ts = true)
    (ss_modular : ∀ c ∈ ss.filterMap Statement.constraint?, c.Modular F)
    (ts_modular : ∀ c ∈ ts.filterMap Statement.constraint?, c.Modular F) (x : Variable → Int) (n : Nat) :
    ((ss.zipIdx n).filterMap (Statement.failure? x F)).map (·.1) =
      ((ts.zipIdx n).filterMap (Statement.failure? x F)).map (·.1) := by
  induction ss generalizing ts n with
  | nil => cases ts <;> first | rfl | cases equal
  | cons s rest ih =>
    cases ts with
    | nil => cases equal
    | cons t others =>
      obtain ⟨first, later⟩ := (Statement.sameAll_cons s t rest others).1 equal
      rw [List.zipIdx_cons, List.zipIdx_cons]
      rcases Statement.constraint?_same first with ⟨left, right⟩ | ⟨c, d, left, right, same⟩
      · rw [List.filterMap_cons_none left] at ss_modular
        rw [List.filterMap_cons_none right] at ts_modular
        rw [List.filterMap_cons_none (Statement.failure?_of_none left),
          List.filterMap_cons_none (Statement.failure?_of_none right)]
        exact ih later ss_modular ts_modular (n + 1)
      · rw [List.filterMap_cons_some left] at ss_modular
        rw [List.filterMap_cons_some right] at ts_modular
        obtain ⟨c_modular, rest_modular⟩ := List.forall_mem_cons.1 ss_modular
        obtain ⟨d_modular, others_modular⟩ := List.forall_mem_cons.1 ts_modular
        have tails := ih later rest_modular others_modular (n + 1)
        have agree := Constraint.holdsIn_of_same same c_modular d_modular x
        have s_fails := Statement.failure?_of_some (x := x) (F := F) (n := n) left
        have t_fails := Statement.failure?_of_some (x := x) (F := F) (n := n) right
        by_cases holds : c.HoldsIn x F
        · rw [if_pos holds] at s_fails
          rw [if_pos (agree.1 holds)] at t_fails
          rw [List.filterMap_cons_none s_fails, List.filterMap_cons_none t_fails, tails]
        · rw [if_neg holds] at s_fails
          rw [if_neg (mt agree.2 holds)] at t_fails
          rw [List.filterMap_cons_some s_fails, List.filterMap_cons_some t_fails, List.map_cons, List.map_cons, tails]

variable {p q : Program}

/-- The same variable ends a check of equal programs, whatever the coefficients calculate with. -/
theorem unsatisfied_eq_error_of_same (equal : Statement.sameAll p.statements q.statements = true) (w : Witness)
    (F : Field) (fault : Fault) : p.unsatisfied w F = .error fault ↔ q.unsatisfied w F = .error fault := by
  unfold unsatisfied
  rw [unsatisfiedFrom_outcome, unsatisfiedFrom_outcome, Witness.unlessMissing_eq_error_iff,
    Witness.unlessMissing_eq_error_iff, visited_same equal]

theorem sameReport_of_same {F : Field} (equal : Statement.sameAll p.statements q.statements = true)
    (p_modular : p.Modular F) (q_modular : q.Modular F) (w : Witness) :
    SameReport (p.unsatisfied w F) (q.unsatisfied w F) := by
  have places := failures_same equal p_modular q_modular w.value 0
  unfold unsatisfied
  rw [unsatisfiedFrom_outcome, unsatisfiedFrom_outcome, visited_same equal]
  unfold Witness.unlessMissing
  cases w.firstMissing? (q.statements.flatMap Statement.visited) with
  | none => exact .inl ⟨_, _, rfl, rfl, places⟩
  | some v => exact .inr ⟨v, rfl, rfl⟩

/-- The uses of a program come out the same for another one: its file, write by write and with the same
ending, its counts, its statements outside of blocks, the values that a verifier is shown, and the check
of its constraints, if their coefficients calculate modulo the modulus. -/
structure Interchangeable (p q : Program) : Prop where
  written : ∀ F : Field, exportProgram F p = exportProgram F q
  constraintCount : p.constraintCount = q.constraintCount
  publicCount : p.interface.publicCount = q.interface.publicCount
  privateCount : p.interface.privateCount = q.interface.privateCount
  cleaned : p.clean.same q.clean = true
  publicValues : ∀ w : Witness, p.interface.publicValues w = q.interface.publicValues w
  broken : ∀ (w : Witness) (F : Field) (fault : Fault),
    p.unsatisfied w F = .error fault ↔ q.unsatisfied w F = .error fault
  checked : ∀ (w : Witness) (F : Field), p.Modular F → q.Modular F →
    SameReport (p.unsatisfied w F) (q.unsatisfied w F)

theorem interchangeable_of_same (equal : p.same q = true) : p.Interchangeable q := by
  obtain ⟨interfaces, statements⟩ := (same_iff p q).1 equal
  obtain ⟨parameters, returns⟩ := (Interface.same_iff _ _).1 interfaces
  have publics : p.interface.publicParameters = q.interface.publicParameters := by
    unfold Interface.publicParameters
    rw [parameters]
  have privates : p.interface.privateCount = q.interface.privateCount := by
    unfold Interface.privateCount
    rw [parameters]
  have constraints := Statement.constraints_same statements
  exact {
    written := fun F => exportProgram_congr F p q
      ⟨returns, congrArg List.length publics, privates, constraints⟩
    constraintCount := constraints.length_eq
    publicCount := Interface.publicCount_congr _ _ (congrArg List.length publics) returns
    privateCount := privates
    cleaned := (same_iff _ _).2 ⟨interfaces, Statement.flattenAll_same _ _ statements⟩
    publicValues := fun w => by
      unfold Interface.publicValues Interface.returns
      rw [publics, returns]
    broken := unsatisfied_eq_error_of_same statements
    checked := fun w F p_modular q_modular => sameReport_of_same statements p_modular q_modular w }

/-- Equality of statements and of programs is an equivalence, and equal programs are interchangeable. -/
theorem same_interchangeable :
    (Equivalence fun s t : { s : Statement // s.Proper } => s.1.same t.1 = true) ∧
    (Equivalence fun p q : { p : Program // p.Proper } => p.1.same q.1 = true) ∧
    ∀ p q : Program, p.same q = true → p.Interchangeable q := by
  refine ⟨⟨?_, ?_, ?_⟩, ⟨?_, ?_, ?_⟩, fun p q => interchangeable_of_same⟩
  · intro s
    exact Statement.same_self s.1 s.2
  · intro s t equal
    exact Statement.same_symm s.1 t.1 s.2 equal
  · intro s t u first second
    exact Statement.same_trans s.1 t.1 u.1 first second
  · intro p
    exact same_self p.2
  · intro p q equal
    obtain ⟨interfaces, statements⟩ := (same_iff p.1 q.1).1 equal
    obtain ⟨parameters, returns⟩ := (Interface.same_iff _ _).1 interfaces
    exact (same_iff q.1 p.1).2 ⟨(Interface.same_iff _ _).2 ⟨parameters.symm, returns.symm⟩,
      Statement.sameAll_symm _ _ p.2 statements⟩
  · intro p q r first second
    obtain ⟨interfaces, statements⟩ := (same_iff p.1 q.1).1 first
    obtain ⟨interfaces', statements'⟩ := (same_iff q.1 r.1).1 second
    obtain ⟨parameters, returns⟩ := (Interface.same_iff _ _).1 interfaces
    obtain ⟨parameters', returns'⟩ := (Interface.same_iff _ _).1 interfaces'
    exact (same_iff p.1 r.1).2
      ⟨(Interface.same_iff _ _).2 ⟨parameters.trans parameters', returns.trans returns'⟩,
        Statement.sameAll_trans _ _ _ statements statements'⟩

end Program

/-- Six times the first local wire, as a combination of scalars. -/
def sixfoldScalar : LinComb := ⟨[⟨.loc 1 Nat.one_pos, Field.scalars.element 6⟩]⟩

/-- The nested program in another field, without the tag, with a truth value for its count and a
floating-point number for the parameter of its solver. -/
def nestedTwin : Program :=
  ⟨⟨[⟨.loc 1 Nat.one_pos, true⟩, ⟨.pub 1, false⟩], .flag true⟩,
    [.block [.log ⟨.str "x", [(.str "Field", [sixfoldScalar])]⟩,
      .block [.constraint ⟨⟨sixfoldScalar, sixfoldScalar⟩, sixfoldScalar, none⟩]],
      .directive ⟨[⟨sixfoldScalar, sixfoldScalar⟩], [.loc 2 Nat.two_pos, .pub 0],
        Solver.bits (.real (.finite false 2 0))⟩]⟩

theorem proper_nestedTwin : nestedTwin.Proper := by
  have flat : nestedTwin.clean.statements = [.log ⟨.str "x", [(.str "Field", [sixfoldScalar])]⟩,
      .constraint ⟨⟨sixfoldScalar, sixfoldScalar⟩, sixfoldScalar, none⟩,
      .directive ⟨[⟨sixfoldScalar, sixfoldScalar⟩], [.loc 2 Nat.two_pos, .pub 0],
        Solver.bits (.real (.finite false 2 0))⟩] := rfl
  unfold Program.Proper
  rw [flat, List.forall_mem_cons, List.forall_mem_cons, List.forall_mem_singleton]
  refine ⟨⟨trivial, List.forall_mem_singleton.2 trivial⟩, trivial, trivial, ?_, trivial⟩
  exact nofun

/-- Both programs have a constraint outside of blocks once they are clean. A check of it sees no field, since
scalars are no elements of the field with eleven elements. -/
theorem Program.same_interchangeable_nested :
    nestedProgram.same nestedTwin = true ∧ nestedTwin.same nestedProgram = true ∧
      nestedProgram.tags.map Option.isSome = [true] ∧ nestedTwin.tags.map Option.isSome = [false] ∧
      (∀ x ∈ nestedProgram.coefficients, x.field = Field.eleven) ∧
      (∀ x ∈ nestedTwin.coefficients, x.field = Field.scalars) ∧
      nestedProgram.Interchangeable nestedTwin ∧
      (nestedProgram.clean.Modular Field.eleven ∧ nestedTwin.clean.Modular Field.eleven ∧
        ∀ w : Witness, SameReport (nestedProgram.clean.unsatisfied w Field.eleven)
          (nestedTwin.clean.unsatisfied w Field.eleven)) ∧
      nestedBlock.same nestedBlock = true := by
  obtain ⟨statements, programs, interchangeable⟩ := same_interchangeable
  have equal : nestedProgram.same nestedTwin = true := by decide +kernel
  have back := programs.symm (x := ⟨nestedProgram, proper_nestedProgram⟩)
    (y := ⟨nestedTwin, proper_nestedTwin⟩) equal
  have uses := interchangeable _ _ equal
  have left : nestedProgram.clean.Modular Field.eleven :=
    List.forall_mem_singleton.2 ((Constraint.forall_mem_combs _ _).2 (by decide))
  have right : nestedTwin.clean.Modular Field.eleven :=
    List.forall_mem_singleton.2 ((Constraint.forall_mem_combs _ _).2 (by decide))
  have checked := (interchangeable _ _ uses.cleaned).checked
  refine ⟨equal, back, by decide, by decide, by decide, by decide, uses,
    ⟨left, right, fun w => checked w _ left right⟩, ?_⟩
  exact statements.refl ⟨nestedBlock, proper_nestedBlock⟩

/-- Nothing at all, over a source, with a floating-point one for the count of returned values. -/
def Supplied.realCount : Supplied where
  parameters := []
  returnCount := .real (.finite false 1 0)
  base := []
  source := .copied []
  collected := none

/-- The program in memory that has an integer for that count. -/
def Program.oneReturn : Program := ⟨⟨[], .number 1⟩, []⟩

theorem Program.exists_fileBytes_oneReturn : ∃ bytes, fileBytes Field.seven oneReturn = .ok bytes := by
  have room : HasRoom Field.seven oneReturn.interface oneReturn.constraints := by
    constructor <;> first | decide | exact nofun
  have ended := (outcome_eq_ok_iff Field.seven oneReturn).2 ⟨nofun, nofun, room⟩
  exact ⟨_, (Run.finished_eq_ok _ _).2 ⟨ended, rfl⟩⟩

/-- Twice `_1` is `_2`, with a factor of some field and all else over the base field. -/
def Program.doubling (F : Field) : Program :=
  ⟨⟨[], .number 0⟩, [.constraint ⟨⟨⟨[⟨.loc 1 Nat.one_pos, F.element 2⟩]⟩, .one Field.base⟩,
    .ofVariable (.loc 2 Nat.two_pos) Field.base, none⟩]⟩

def Witness.doubled : Witness :=
  .ofList [(.loc 1 Nat.one_pos, Field.scalars.maxValue), (.loc 2 Nat.two_pos, 2 * Field.scalars.maxValue)]

/-- A program with a floating-point one for its count is equal to one with an integer there, which can be written
while it cannot. Over the base field, the factor two of the scalars is equal to that of the field itself, and a
check of the one fails where the other one holds. -/
theorem Program.same_told_apart :
    ((Supplied.realCount.step Field.seven (.equals oneReturn)).2 = .ok (.equality true) ∧
      (Supplied.realCount.export Field.seven).2 = .error .wordOverflow ∧
      ∃ bytes, fileBytes Field.seven oneReturn = .ok bytes) ∧
    (doubling Field.scalars).same (doubling Field.base) = true ∧
      ((doubling Field.scalars).unsatisfied Witness.doubled Field.base).map (·.map Prod.fst) = .ok [0] ∧
      ((doubling Field.base).unsatisfied Witness.doubled Field.base).map (·.map Prod.fst) = .ok [] := by
  refine ⟨⟨rfl, rfl, exists_fileBytes_oneReturn⟩, by decide +kernel, ?_, ?_⟩ <;> rfl

end Circuit

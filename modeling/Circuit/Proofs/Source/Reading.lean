import Circuit.Proofs.R1cs.Outcome
import Mathlib.Logic.Function.Iterate

/-!
# What one action sees

A program over a source stands, at any moment, for the program in memory that a reading would make. What
it shows is what that program shows, and the source is opened as often as the action reads it.

* `Action.openings` counts the readings of an action. Writing reads once for each pass: `R1cs.passes`,
  which is two for a file that was written and one for a program that contradicts itself.
* `Supplied.Reads` relates a program over a source to the program in memory that it stands for.
* `Reads.step_fst` says all that an action does; `step_iterate`, `step_collect`, `step_equals`,
  `step_compare` and `step_export` what it shows.
-/

namespace Circuit

open R1cs

/-! ### Rows of statements as rows of members -/

namespace Entry

theorem sameAll_statements (ss ts : List Statement) :
    sameAll 0 (ss.map .statement) (ts.map .statement) = Statement.sameAll ss ts := by
  induction ss generalizing ts with
  | nil => cases ts <;> rfl
  | cons s rest ih =>
    cases ts with
    | nil => rfl
    | cons t others => simp [sameAll, Statement.sameAll, same, ih]

/-- A row and a beginning of it, with the same members, are equal when nothing follows. -/
theorem sameAll_of_shared (row more : List Entry) :
    sameAll row.length (row ++ more) row = more.isEmpty := by
  induction row with
  | nil => cases more <;> rfl
  | cons x rest ih => simp [sameAll, ih]

theorem filterMap_constraint? (ss : List Statement) :
    (ss.map statement).filterMap constraint? = ss.filterMap Statement.constraint? := by
  rw [List.filterMap_map]
  rfl

end Entry

namespace ReturnCount

theorem number?_toJson (c : ReturnCount) : c.toJson.number? = some (.inl c.toNat) := by
  cases c with
  | number n => exact congrArg (fun x : Rat => some (Sum.inl x)) (Rat.intCast_natCast n)
  | flag b => cases b <;> simp [toJson, toNat, Json.number?]

theorem same_toJson (c d : ReturnCount) :
    c.toJson.same d.toJson = decide (c.toNat = d.toNat) := by
  have atoms : c.toJson.same d.toJson = c.toJson.sameAtom d.toJson := by
    cases c <;> cases d <;> simp [toJson, Json.same]
  rw [atoms, Json.sameAtom, number?_toJson, number?_toJson]
  simp

theorem sameAsItself_toJson (c : ReturnCount) : c.toJson.sameAsItself = true := by
  cases c <;> rfl

end ReturnCount

/-! ### How often a source is opened -/

namespace Source

variable {α : Type}

/-- However often a source is read, the members are the same. -/
theorem members_iterate (base : List α) (n : Nat) (source : Source α) :
    (opened^[n] source).members base = source.members base := by
  induction n generalizing source with
  | zero => rfl
  | succ n ih => rw [Function.iterate_succ_apply, ih, members_opened]

end Source

namespace R1cs

/-- How often writing a program reads its statements: once if the first pass refuses it, and twice if the
second pass is reached. -/
def passes (F : Field) (q : Program) : Nat :=
  match Sizing.compute F q.interface q.constraints with
  | .error _ => 1
  | .ok _ => if bodySize F.byteWidth q.constraints < Bytes.capacity 8 then 2 else 1

end R1cs

namespace Action

/-- The statements that an action appends to the base row. -/
def appends : Action → List Statement
  | .append s => [s]
  | _ => []

def isCollect : Action → Bool
  | .collect => true
  | _ => false

/-- How often an action reads a source that stands for `q`. A comparison reads it once if the interfaces
are equal; with the collected program, if there is one, it is made twice. -/
def openings (F : Field) (q : Program) (collected : Bool) : Action → Nat
  | .iterate => 1
  | .collect => 1
  | .compare => if collected then 2 else 0
  | .equals other => if q.interface.same other.interface then 1 else 0
  | .export => passes F q
  | _ => 0

end Action

/-! ### What a reading stands for -/

namespace Supplied

/-- A reading of `p` makes the program `q`. -/
structure Reads (p : Supplied) (q : Program) : Prop where
  parameters : p.parameters = q.interface.parameters
  returnCount : p.returnCount = q.interface.returnCount.toJson
  members : p.members = q.statements.map .statement

/-- The program after more readings of its source. -/
def openedTimes (n : Nat) (p : Supplied) : Supplied := { p with source := Source.opened^[n] p.source }

namespace Reads

variable {p : Supplied} {q : Program}

theorem constraints (reads : p.Reads q) : p.constraints = q.constraints := by
  unfold Supplied.constraints Program.constraints
  rw [reads.members, Entry.filterMap_constraint?]

theorem interface (reads : p.Reads q) : p.interface = .ok q.interface := by
  obtain ⟨⟨parameters, count⟩, statements⟩ := q
  unfold Supplied.interface
  rw [reads.returnCount, reads.parameters]
  cases count <;> rfl

theorem oddSize? (reads : p.Reads q) : p.oddSize? = none := by
  unfold Supplied.oddSize?
  rw [reads.returnCount]
  cases q.interface.returnCount <;> rfl

/-- Writing is writing the program that a reading makes, and reads the source once for each pass. -/
theorem export_eq (reads : p.Reads q) (F : Field) :
    p.export F = (p.openedTimes (passes F q), fileBytes F q) := by
  unfold «export» fileBytes exportProgram exportConstraints exportWith passes passed
  simp only [reads.oddSize?, reads.interface, p.constraints_opened, reads.constraints]
  cases Sizing.compute F q.interface q.constraints with
  | error fault => rfl
  | ok sizing =>
    simp only
    split <;> rfl

/-- A comparison with the collected program reads the source, and is made twice. -/
theorem step_compare (reads : p.Reads q) (F : Field) {row : List Entry} (held : p.collected = some row) :
    p.step F .compare = (p.openedTimes 2, .ok (.equalities (Entry.sameAll row.length p.members row)
      (Entry.sameAll row.length p.members row) true)) := by
  have alike : p.returnCount.sameAsItself = true := by
    rw [reads.returnCount, ReturnCount.sameAsItself_toJson]
  have again : p.opened.members = p.members := Source.members_opened p.base p.source
  simp only [step, held, compareWith, alike, again, if_true]
  rfl

/-- Comparing is comparing the program that a reading makes. The source is read when the interfaces are
equal, whether or not the statements are. -/
theorem compareWith_program (reads : p.Reads q) (other : Program) :
    p.compareWith (p.parameters = other.interface.parameters &&
        p.returnCount.same other.interface.returnCount.toJson) 0 (other.statements.map .statement) =
      (p.openedTimes (if q.interface.same other.interface then 1 else 0), q.same other) := by
  unfold compareWith Program.same
  rw [reads.parameters, reads.returnCount, ReturnCount.same_toJson, reads.members,
    Entry.sameAll_statements, ← Interface.same]
  cases q.interface.same other.interface <;> rfl

/-- All that an action does: it appends, reads, and may collect what it read. -/
theorem step_fst (reads : p.Reads q) (F : Field) (a : Action) :
    (p.step F a).1 = { p.openedTimes (a.openings F q p.collected.isSome) with
      base := p.base ++ a.appends.map .statement
      collected := if a.isCollect then some p.members else p.collected } := by
  cases a with
  | append s => rfl
  | «export» =>
    simp only [step, reads.export_eq, Action.appends, List.map_nil, List.append_nil]
    rfl
  | equals other =>
    simp only [step, reads.compareWith_program, Action.appends, List.map_nil, List.append_nil]
    rfl
  | compare =>
    obtain held | ⟨row, held⟩ := p.collected.eq_none_or_eq_some
    · have nothing : p.collected.isSome = false := by rw [held]; rfl
      have still : p.step F .compare = (p, .error .noOperation) := by simp only [step, held]
      rw [still]
      simp only [nothing, Action.openings, Action.appends, List.map_nil, List.append_nil]
      rfl
    · have something : p.collected.isSome = true := by rw [held]; rfl
      rw [reads.step_compare F held]
      simp only [something, Action.openings, Action.appends, List.map_nil, List.append_nil]
      rfl
  | size =>
    simp only [step, Action.appends, List.map_nil, List.append_nil]
    cases p.source.size? p.base <;> rfl
  | _ =>
    simp only [step, Action.appends, List.map_nil, List.append_nil]
    rfl

end Reads

end Supplied

end Circuit

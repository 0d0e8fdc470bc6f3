import Circuit.Codec.Encode
import Circuit.R1cs.Export
import Circuit.Source.Basic

/-!
# Scripts over a source

A program whose statements come from a source, and what a script of readings sees of it while its
base row grows. A row may hold values that are no statements; they are passed over by an export and
refused when a program is written as JSON. The count of returned values is any JSON value until
something needs it.

* `Supplied.step` is one action; `Supplied.run` is a script.
* `Supplied.export` reads the source twice, unless it fails before the second reading.
* `Supplied.compareWith` reads the source once, unless the rest already differs.
* `Program.equalsClean` compares a program with its clean form, which holds the very statements of the program.
-/

namespace Circuit

/-- A member of a row of statements: a statement, or a value that is none. -/
inductive Entry
  | statement (s : Statement)
  | other (value : Json)
deriving Repr

namespace Entry

def text : Entry → Except Fault Text
  | .statement s => s.text
  | .other value => .ok value.display

/-- The JSON form of a member, which only statements have. -/
def encode : Entry → Except Fault Json
  | .statement s => .ok s.encode
  | .other value => .error (.notStatement value.literal)

def constraint? : Entry → Option Constraint
  | .statement s => s.constraint?
  | .other _ => none

def same : Entry → Entry → Bool
  | .statement s, .statement t => s.same t
  | .other x, .other y => x.same y
  | _, _ => false

/-- Equality of rows of members. The two rows hold one and the same member in each of the first `shared`
places; such a member is equal to itself without being compared. -/
def sameAll : Nat → List Entry → List Entry → Bool
  | _, [], [] => true
  | shared + 1, _ :: xs, _ :: ys => sameAll shared xs ys
  | 0, x :: xs, y :: ys => x.same y && sameAll 0 xs ys
  | _, _, _ => false

end Entry

/-- A program over a source, with the base row behind the source, and the program that was collected
from it last. -/
structure Supplied where
  parameters : List Parameter
  returnCount : Json
  base : List Entry
  source : Source Entry
  collected : Option (List Entry)
deriving Repr

/-- An action on a program over a source or on its base row. -/
inductive Action
  /-- Appends a statement to the base row. -/
  | append (s : Statement)
  /-- Reads the source for the texts of its members. -/
  | iterate
  /-- Asks for the count of members. -/
  | size
  /-- Asks how often a generator was opened. -/
  | calls
  /-- Asks what the program shows outside. -/
  | counts
  /-- Asks for the values that a verifier is shown. -/
  | publicValues (w : Witness)
  /-- Reads the source into a program in memory. -/
  | collect
  /-- Compares with the collected program, and with that program over its own row. -/
  | compare
  /-- Compares with a program in memory. -/
  | equals (q : Program)
  /-- Writes the program as a constraint file. -/
  | export
deriving Repr

inductive Observation
  | count (n : Nat)
  | texts (lines : List Text)
  | counts (publicCount : Int) (i : Interface)
  | values (xs : List Int)
  | program (data : Json)
  | equalities (collected handedOn sharesRow : Bool)
  | equality (equal : Bool)
  | file (bytes : Bytes)
deriving Repr

namespace Supplied

/-- The members that a reading sees now. -/
def members (p : Supplied) : List Entry := p.source.members p.base

/-- The program after one more reading of its source. -/
def opened (p : Supplied) : Supplied := { p with source := p.source.opened }

def constraints (p : Supplied) : List Constraint := p.members.filterMap Entry.constraint?

/-- What the program shows outside. A negative count of returned values returns nothing, and a count that
is no integer is of no use. -/
def interface (p : Supplied) : Except Fault Interface :=
  match p.returnCount with
  | .bool b => .ok ⟨p.parameters, .flag b⟩
  | .int n => .ok ⟨p.parameters, .number n.toNat⟩
  | _ => .error .unsupported

/-- The size of the public section, which a negative count of returned values makes smaller. -/
def publicCount (p : Supplied) : Except Fault Int :=
  p.interface.map fun i =>
    match p.returnCount with
    | .int n => i.publicParameters.length + n
    | _ => i.publicCount

/-- The size of a public section whose count of returned values no file can hold. -/
def oddSize? (p : Supplied) : Option Json :=
  let inputs := (p.parameters.filter fun q => !q.isPrivate).length
  match p.returnCount with
  | .int (.negSucc n) => some (.int (Int.negSucc n + inputs))
  | .real x => (Binary64.ofInt? inputs).map fun y => .real (x.add y)
  | _ => none

/-- The program after the readings of a first pass that comes to its end: the second pass begins once the
byte count of the constraint section is written, and not where that count has no room. -/
def passed (F : Field) (p : Supplied) : Supplied :=
  if R1cs.bodySize F.byteWidth p.constraints < Bytes.capacity 8 then p.opened.opened else p.opened

/-- Writes the program as a constraint file: a first reading finds the sizes, a second one writes. -/
def «export» (F : Field) (p : Supplied) : Supplied × Except Fault Bytes :=
  match p.oddSize?, p.interface with
  | some size, _ =>
      match R1cs.refusal size p.constraints with
      | some fault => (p.opened, .error fault)
      | none => (p.passed F, .error .wordOverflow)
  | none, .error fault => (p, .error fault)
  | none, .ok i =>
      match R1cs.Sizing.compute F i p.constraints with
      | .error fault => (p.opened, .error fault)
      | .ok sizing =>
          (p.passed F, (R1cs.Run.ofChunks (R1cs.chunks sizing p.opened.constraints)).finished)

/-- Compares the program with one over a row, whose first `shared` members are those of this program. The
source is read only where the parameters and the counts are alike. -/
def compareWith (alike : Bool) (shared : Nat) (row : List Entry) (p : Supplied) : Supplied × Bool :=
  if alike then (p.opened, Entry.sameAll shared p.members row) else (p, false)

def step (F : Field) (action : Action) (p : Supplied) : Supplied × Except Fault Observation :=
  match action with
  | .append s =>
      let base := p.base ++ [.statement s]
      ({ p with base }, .ok (.count base.length))
  | .iterate => (p.opened, (p.members.mapM Entry.text).map .texts)
  | .size =>
      match p.source.size? p.base with
      | some n => (p, .ok (.count n))
      | none => (p, .error .unsupported)
  | .calls => (p, .ok (.count p.source.calls))
  | .counts => (p, p.interface.bind fun i => p.publicCount.map fun n => .counts n i)
  | .publicValues w => (p, p.interface.bind fun i => (i.publicValues w).map .values)
  | .collect =>
      let data := p.members.mapM Entry.encode
      ({ p.opened with collected := some p.members },
        data.map fun rows => .program (Interface.encodeWith p.parameters p.returnCount rows))
  | .compare =>
      match p.collected with
      | none => (p, .error .noOperation)
      | some row =>
          -- A row only grows, so what was collected from it still comes first, as the same objects.
          let (between, collected) := p.compareWith p.returnCount.sameAsItself row.length row
          -- The collected program hands on the source over its own row.
          let own : Source Entry := Given.toSource (.source .shared)
          let (after, handedOn) := between.compareWith p.returnCount.sameAsItself row.length (own.members row)
          (after, .ok (.equalities collected handedOn own.sharesRow))
  | .equals q =>
      let i := q.interface
      let alike := p.parameters = i.parameters && p.returnCount.same i.returnCount.toJson
      let (after, equal) := p.compareWith alike 0 (q.statements.map .statement)
      (after, .ok (.equality equal))
  | .export =>
      let (after, bytes) := p.export F
      (after, bytes.map .file)

/-- A script: its actions in order. -/
def run (F : Field) : List Action → Supplied → Supplied × List (Except Fault Observation)
  | [], p => (p, [])
  | action :: rest, p =>
      let (after, seen) := p.step F action
      let (last, others) := run F rest after
      (last, seen :: others)

end Supplied

namespace Program

def entries (p : Program) : List Entry := p.statements.map .statement

/-- The count of statements before the first block. -/
def leading (p : Program) : Nat := (p.statements.takeWhile fun s => !s.isBlock).length

/-- Whether the clean form of the program equals the program. A comparison does not look into a statement that
stands at the same number on both sides, as those before the first block do, so that a number in it which is
unequal to itself does no harm. -/
def equalsClean (p : Program) : Bool :=
  p.clean.interface.same p.interface && Entry.sameAll p.leading p.clean.entries p.entries

end Program

end Circuit

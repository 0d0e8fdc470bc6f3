import Circuit.Fault
import Circuit.Json.Text

/-!
# Sources

A source lets its members be read more than once. It stands over a base row that somebody else may
append to: it shares the row, holds a copy of it, or opens it anew for every reading.

* `Source.members` says what a reading sees, and `Source.opened` what it leaves of the source.
* `Given.toSource` makes a source of what a program is given for its statements.
* `Supply.source` is the source that a base row comes to when it is supplied in some way.
-/

namespace Circuit

inductive Source (α : Type)
  /-- The base row itself. -/
  | shared
  /-- A copy of the members that the base row once had. -/
  | copied (members : List α)
  /-- A generator that opens the base row for every reading, and how often it did. -/
  | generated (calls : Nat)
deriving Repr

namespace Source

variable {α : Type}

def members (base : List α) : Source α → List α
  | .copied members => members
  | _ => base

def calls : Source α → Nat
  | .generated calls => calls
  | _ => 0

/-- The source after one more reading. -/
def opened : Source α → Source α
  | .generated calls => .generated (calls + 1)
  | source => source

def size? (base : List α) : Source α → Option Nat
  | .generated _ => none
  | source => some (source.members base).length

/-- Whether the source is over the base row itself. -/
def sharesRow : Source α → Bool
  | .shared => true
  | _ => false

/-- Whether a reading sees what is appended to the base row later. -/
def followsRow : Source α → Bool
  | .copied _ => false
  | _ => true

theorem members_opened (base : List α) (source : Source α) :
    source.opened.members base = source.members base := by
  cases source <;> rfl

end Source

/-- What a program can be given for its statements. -/
inductive Given (α : Type)
  /-- A source. -/
  | source (s : Source α)
  /-- The base row. -/
  | row
  /-- Something to call for a reader of the base row. -/
  | callable
  /-- Anything else that can be looped over, with the members that a loop finds. -/
  | iterable (members : List α)
deriving Repr

namespace Given

variable {α : Type}

/-- The source that a program makes of what it is given. A source is used as it is and the base row is shared;
what may be used up by one loop is copied. -/
def toSource : Given α → Source α
  | .source s => s
  | .row => .shared
  | .callable => .generated 0
  | .iterable members => .copied members

/-- JSON data for statements, which must have members. Of a row that nobody else holds, a copy is as good as the
row itself. -/
def ofJson (member : Json → α) (data : Json) : Except Fault (Given α) :=
  match data.items? with
  | some items => .ok (.iterable (items.map member))
  | none => .error (.notSource data.literal)

end Given

/-- The source of a program in memory, which copies the members of the row that it is made with. -/
def Source.inMemory {α : Type} (members : List α) : Source α := .copied members

/-- A way to supply a base row. -/
inductive Supply
  /-- The row itself. -/
  | row
  /-- A source that somebody made around the row. -/
  | wrapped
  /-- A generator that reads the row from its start whenever it is called. -/
  | generator
  /-- A row that nobody can append to, with the members of the base row. -/
  | tuple
  /-- A reader of the row that is used up by one reading. -/
  | once
  /-- A program in memory with the members of the row. -/
  | program
  /-- What a program in memory hands on: its own row, and not a copy of it. -/
  | handedOn
deriving DecidableEq, Repr

namespace Supply

variable {α : Type}

/-- What a program is given for its statements when a base row is supplied in some way. -/
def given (base : List α) : Supply → Given α
  | .row => .row
  | .wrapped => .source .shared
  | .generator => .callable
  | .tuple => .iterable base
  | .once => .iterable base
  | .program => .source (.inMemory base)
  | .handedOn => .source (.inMemory base)

def source (base : List α) (supply : Supply) : Source α := (supply.given base).toSource

/-- Whether what is appended to the base row later is seen. -/
def sharesBase (supply : Supply) : Bool := (supply.source ([] : List Unit)).followsRow

end Supply

end Circuit

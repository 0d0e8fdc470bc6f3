import Circuit.Statement.Equality
import Circuit.Statement.Text

/-!
# Programs

A program has parameters, a count of returned values, and a row of statements. Its public section
holds the returned values first and the public parameters after them; a verifier is shown the
public parameters first.

* `Interface.publicCount` is the size of the public section.
* `Interface.publicValues` are the values that a verifier is shown.
* `Program.clean` takes all statements out of their blocks.
* `Program.unsatisfied` lists the constraints that fail under a witness.
-/

namespace Circuit

/-- A parameter of a program. A private one is hidden from the public section. -/
structure Parameter where
  id : Variable
  isPrivate : Bool
deriving DecidableEq, Repr

/-- The count of returned values, as it was given: a number, or a truth value for none or one. -/
inductive ReturnCount
  | number (n : Nat)
  | flag (b : Bool)
deriving DecidableEq, Repr

/-- What a program shows outside: its parameters and the count of its returned values. -/
structure Interface where
  parameters : List Parameter
  returnCount : ReturnCount
deriving DecidableEq, Repr

/-- A program: its interface and its statements. -/
structure Program where
  interface : Interface
  statements : List Statement
deriving Repr

namespace Parameter

def text (p : Parameter) : String :=
  (if p.isPrivate then "private " else "") ++ p.id.text

def literal (p : Parameter) : String := "Parameter(" ++ p.text ++ ")"

end Parameter

namespace ReturnCount

def toNat : ReturnCount → Nat
  | .number n => n
  | .flag b => if b then 1 else 0

/-- The count as it was given. -/
def toJson : ReturnCount → Json
  | .number n => .int n
  | .flag b => .bool b

end ReturnCount

namespace Interface

def returns (i : Interface) : List Variable :=
  (List.range i.returnCount.toNat).map .pub

def publicParameters (i : Interface) : List Variable :=
  (i.parameters.filter fun p => !p.isPrivate).map (·.id)

def privateCount (i : Interface) : Nat :=
  (i.parameters.filter fun p => p.isPrivate).length

def publicCount (i : Interface) : Nat :=
  i.publicParameters.length + i.returnCount.toNat

/-- Inserts a variable into a row in ascending order, unless it is there. -/
def insertVariable (v : Variable) : List Variable → List Variable
  | [] => [v]
  | u :: rest =>
      if v = u then u :: rest
      else if v.precedes u then v :: u :: rest
      else u :: insertVariable v rest

def distinctVariables (vs : List Variable) : List Variable :=
  vs.foldr insertVariable []

/-- The variables of the public parameters, in ascending order without repetitions. -/
def publicInputs (i : Interface) : List Variable :=
  distinctVariables i.publicParameters

/-- The values of a row of public variables; a missing one is a fault of the circuit. -/
def publicValuesOf (w : Witness) : List Variable → Except Fault (List Int)
  | [] => .ok []
  | v :: rest =>
      match w.get? v with
      | none => .error (.missingPublic v)
      | some x => (publicValuesOf w rest).map (x :: ·)

/-- The values that a verifier is shown: of the public parameters, then of the returned values. -/
def publicValues (i : Interface) (w : Witness) : Except Fault (List Int) :=
  publicValuesOf w (i.publicParameters ++ i.returns)

def same (i j : Interface) : Bool :=
  i.parameters = j.parameters && i.returnCount.toNat = j.returnCount.toNat

end Interface

namespace Program

def constraints (p : Program) : List Constraint := p.statements.filterMap Statement.constraint?

def constraintCount (p : Program) : Nat := p.constraints.length

/-- The program with its statements taken out of all blocks. -/
def clean (p : Program) : Program := ⟨p.interface, Statement.flattenAll p.statements⟩

def hasBlocks (p : Program) : Bool := p.statements.any Statement.isBlock

def same (p q : Program) : Bool :=
  p.interface.same q.interface && Statement.sameAll p.statements q.statements

/-- The constraints of a row that fail under a witness, with their places; the first statement has
the given place. -/
def unsatisfiedFrom (w : Witness) (F : Field) :
    Nat → List Statement → Except Fault (List (Nat × Constraint))
  | _, [] => .ok []
  | place, s :: rest =>
      match s.constraint? with
      | none => unsatisfiedFrom w F (place + 1) rest
      | some c =>
          match c.isSatisfied w F with
          | .error fault => .error fault
          | .ok satisfied =>
              (unsatisfiedFrom w F (place + 1) rest).map fun failed =>
                if satisfied then failed else (place, c) :: failed

/-- The constraints that fail under a witness, with their places among the statements. -/
def unsatisfied (p : Program) (w : Witness) (F : Field) :
    Except Fault (List (Nat × Constraint)) :=
  unsatisfiedFrom w F 0 p.statements

def text (p : Program) : Except Fault Text :=
  match Statement.texts p.statements with
  | .error fault => .error fault
  | .ok lines =>
      let returns := String.intercalate ", " (p.interface.returns.map Variable.text)
      let parameters := String.intercalate ", " (p.interface.parameters.map Parameter.text)
      let head := "def main(" ++ parameters ++ ") -> (" ++ returns ++ ") \x7b\n"
      let body := Text.lines (lines.map fun line => "\t" ++ line)
      .ok (head ++ body ++ "\treturn " ++ returns ++ "\n\x7d\n")

end Program

end Circuit

import Circuit.Fault
import Circuit.Json.Text

/-!
# Solvers and error tags

A solver is an external procedure known by name and parameters; some names are known to take a
certain number of inputs and outputs. An error tag names what it means when a constraint fails.
Names, parameters and messages are JSON values.

* `Solver.signature` gives the inputs and outputs of a known solver.
* `Solver.text` and `ErrorTag.text` fail where a name alone would be shown and is no text.
-/

namespace Circuit

/-- An external procedure: its name and parameters. -/
structure Solver where
  name : Json
  parameters : List Json
deriving Repr

/-- What a constraint reports when it fails; the message `null` is no message. -/
structure ErrorTag where
  kind : Json
  message : Json
deriving Repr

/-- How many inputs and outputs a solver has. The count of outputs may come from a parameter. -/
structure Signature where
  inputs : Nat
  outputs : Json
deriving Repr

namespace Solver

/-- The solver that splits a number into `n` bits. -/
def bits (n : Json) : Solver := ⟨.str "Bits", [n]⟩

/-- The known solvers without parameters, with their inputs and outputs. -/
def known : List (String × Signature) :=
  [("ConditionEq", ⟨1, .int 2⟩), ("Div", ⟨2, .int 1⟩), ("Xor", ⟨2, .int 1⟩), ("Or", ⟨2, .int 1⟩),
   ("ShaAndXorAndXorAnd", ⟨3, .int 1⟩), ("ShaCh", ⟨3, .int 1⟩), ("EuclideanDiv", ⟨2, .int 2⟩)]

/-- The fault of a known solver with the wrong number of parameters. -/
def wrongParameters (s : Solver) : Fault :=
  .solverParameters s.name.display (Json.tuple s.parameters)

/-- The signature of a solver; nothing for an unknown one. -/
def signature (s : Solver) : Except Fault (Option Signature) :=
  match s.name with
  | .str name =>
      if name = "Bits" then
        match s.parameters with
        | [n] => .ok (some ⟨1, n⟩)
        | _ => .error s.wrongParameters
      else
        match name.toString?.bind fun s => known.lookup s with
        | none => .ok none
        | some signature =>
            if s.parameters.isEmpty then .ok (some signature) else .error s.wrongParameters
  | name => if name.isSetMember then .ok none else .error .notSetMember

def text (s : Solver) : Except Fault Text :=
  match s.name, s.parameters with
  | .str name, [] => .ok name
  | _, [] => .error .notText
  | name, parameters =>
      .ok (name.display ++ "(" ++ Text.join ", " (parameters.map Json.display) ++ ")")

def literal (s : Solver) : Except Fault Text :=
  s.text.map fun t => "Solver(" ++ t ++ ")"

def same (s t : Solver) : Bool :=
  s.name.same t.name && Json.sameItems s.parameters t.parameters

def isSetMember (s : Solver) : Bool :=
  s.name.isSetMember && s.parameters.all Json.isSetMember

end Solver

namespace ErrorTag

def text (e : ErrorTag) : Except Fault Text :=
  match e.kind, e.message with
  | .str kind, .null => .ok kind
  | _, .null => .error .notText
  | kind, message => .ok (kind.display ++ ": " ++ message.display)

def literal (e : ErrorTag) : Except Fault Text :=
  e.text.map fun t => "ErrorTag(" ++ t ++ ")"

def same (e f : ErrorTag) : Bool := e.kind.same f.kind && e.message.same f.message

def isSetMember (e : ErrorTag) : Bool := e.kind.isSetMember && e.message.isSetMember

end ErrorTag

end Circuit

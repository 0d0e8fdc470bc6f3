import Circuit.QuadComb
import Circuit.Solver

/-!
# Statements

The statements of a circuit: constraints, directives that ask a solver for values, log messages, and
blocks of statements.

* `Directive.make` checks the numbers of inputs and outputs of a known solver.
* `Constraint.isSatisfied` evaluates both sides, the product first.
* `Statement.flatten` takes a statement out of its blocks; `Statement.constraint?` finds the
  constraints of the top level.
-/

namespace Circuit

/-- The constraint that a product equals a linear combination. The tag says what it means when it
fails; it is no part of the constraint's identity. -/
structure Constraint where
  quad : QuadComb
  lin : LinComb
  tag : Option ErrorTag
deriving Repr

/-- A hint that a solver computes the values of the outputs from those of the inputs. -/
structure Directive where
  inputs : List QuadComb
  outputs : List Variable
  solver : Solver
deriving Repr

/-- A message to be written while a witness is computed, with groups of combinations under the name
of their type. -/
structure Log where
  format : Json
  groups : List (Json × List LinComb)
deriving Repr

inductive Statement
  | constraint (c : Constraint)
  | directive (d : Directive)
  | log (l : Log)
  | block (body : List Statement)
deriving Repr

namespace Solver

/-- Checks the numbers of inputs and outputs against the signature of the solver. -/
def checkArity (s : Solver) (inputs outputs : Nat) : Except Fault Unit :=
  match s.signature with
  | .error fault => .error fault
  | .ok none => .ok ()
  | .ok (some signature) =>
      if signature.inputs = inputs ∧ signature.outputs.same (.int outputs) then .ok ()
      else
        match s.text with
        | .error fault => .error fault
        | .ok name =>
            .error (.solverArity name signature.inputs signature.outputs.display inputs outputs)

end Solver

namespace Directive

def make (inputs : List QuadComb) (outputs : List Variable) (solver : Solver) :
    Except Fault Directive :=
  (solver.checkArity inputs.length outputs.length).map fun _ => ⟨inputs, outputs, solver⟩

end Directive

namespace Constraint

def isSatisfied (c : Constraint) (w : Witness) (F : Field) : Except Fault Bool :=
  match c.quad.evaluate w F with
  | .error fault => .error fault
  | .ok x =>
      match c.lin.evaluate w F with
      | .error fault => .error fault
      | .ok y => .ok (x.value = y.value)

/-- The three combinations of a constraint, in the order in which they are visited. -/
def combs (c : Constraint) : List LinComb := [c.quad.left, c.quad.right, c.lin]

theorem forall_mem_combs (c : Constraint) (p : LinComb → Prop) :
    (∀ a ∈ c.combs, p a) ↔ p c.quad.left ∧ p c.quad.right ∧ p c.lin := by
  simp [combs]

/-- The constraint that a product defines a variable. -/
def define (v : Variable) (quad : QuadComb) (F : Field) : Constraint :=
  ⟨quad, LinComb.ofVariable v F, none⟩

end Constraint

namespace Statement

def constraint? : Statement → Option Constraint
  | .constraint c => some c
  | _ => none

def isBlock : Statement → Bool
  | .block _ => true
  | _ => false

mutual

def flatten : Statement → List Statement
  | .block body => flattenAll body
  | s => [s]

def flattenAll : List Statement → List Statement
  | [] => []
  | s :: rest => flatten s ++ flattenAll rest

end

end Statement

end Circuit

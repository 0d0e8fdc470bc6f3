import Circuit.Operand.Arithmetic
import Circuit.Operand.Codec

/-!
# Calculations

A calculation is a row of steps. Every step has a register of its own for its result; a step that
fails, or whose result cannot be written, leaves nothing there.

* `Step.result` is the result of one step.
* `Calculation.run` gives the reports of a row of steps.
-/

namespace Circuit

/-- Where a step finds an operand: in a register, or as plain data in the step itself. A negative number
counts registers backwards from the last one. -/
inductive Slot
  | register (n : Int)
  | given (data : Json)
  /-- Nowhere: the place of a register holds something that is no number. -/
  | misplaced
deriving Repr

inductive Step
  /-- Reads a variable. -/
  | readVariable (text : Text)
  /-- The combination of given terms; plain integers become elements of the field. -/
  | terms (terms : List (Variable × Scalar)) (F : Field)
  | zero
  | one (F : Field)
  | summand (coeff : Int) (v : Variable) (F : Field)
  /-- Reads an operand as a combination. -/
  | linear (a : Slot) (F : Field)
  | add (a b : Slot)
  | sub (a b : Slot)
  | neg (a : Slot)
  | mul (a : Slot) (k : Scalar)
  | rmul (k : Scalar) (a : Slot)
  | isZero (a : Slot)
  | size (a : Slot)
  | vars (a : Slot)
  | text (a : Slot)
  | literal (a : Slot)
  | toCanonical (a : Slot)
  | toLinComb (a : Slot)
  | get (a : Slot) (v : Variable)
  | contains (a : Slot) (v : Variable)
  /-- The product of two operands as they are. -/
  | quad (a b : Slot)
  /-- Reads an operand as a product. -/
  | product (a : Slot) (F : Field)
  | evaluate (a : Slot) (witness : Json) (F : Field)
  | isSatisfied (a : Slot) (witness : Json) (F : Field)
  | equals (a b : Slot)
  | distinct (members : List Slot)
  | assign (a : Slot)
  /-- The constraint that a product defines an operand. -/
  | define (a quad : Slot) (F : Field)
  /-- The constraint between two operands, read as product and combination. -/
  | constraint (quad lin : Slot) (F : Field)
  /-- The constraint between two operands as they are. -/
  | tagged (quad lin : Slot) (tag : Json)
  | directive (inputs outputs : List Slot) (name parameters : Json)
  | log (format : Json) (groups : List (Json × List Slot))
  | block (body : List Slot)
deriving Repr

def Slot.operand (registers : List Operand) : Slot → Except Fault Operand
  | .given data => .ok (.json data)
  | .misplaced => .error .notNumeric
  | .register (.ofNat n) =>
      match registers[n]? with
      | some x => .ok x
      | none => .error .noRegister
  | .register (.negSucc n) =>
      match registers.reverse[n]? with
      | some x => .ok x
      | none => .error .noRegister

/-- Reads the witness for an evaluation, once it is known that the operand has a value. -/
def evaluateWith {α : Type} (applies : Bool) (witness : Json) (F : Field)
    (evaluate : Witness → Except Fault α) : Except Fault α := do
  if applies then
    let w ← Witness.decode F witness
    evaluate w
  else throw .noOperation

namespace Operand

def hasValue : Operand → Bool
  | .comb _ => true
  | .quad _ _ => true
  | _ => false

def isConstraint : Operand → Bool
  | .constraint _ _ _ => true
  | _ => false

/-- A directive whose inputs are read as products and suit the solver in number. -/
def makeDirective (inputs outputs : List Operand) (solver : Solver) : Except Fault Operand := do
  let inputs ← inputs.mapM (product Field.scalars)
  let _ ← solver.checkArity inputs.length outputs.length
  return .directive inputs outputs solver

end Operand

namespace Step

def flag (b : Bool) : Operand := .json (.bool b)

def words (s : Text) : Operand := .json (.str s)

/-- The result of a step under the registers of the steps before it. -/
def result (registers : List Operand) (step : Step) : Except Fault Operand := do
  let find (slot : Slot) : Except Fault Operand := slot.operand registers
  match step with
  | .readVariable s => (Variable.parse s).map .var
  | .terms row F => return .comb ⟨row.map fun t => ⟨t.1, t.2.coefficient F⟩⟩
  | .zero => return .comb LinComb.zero
  | .one F => return .comb (LinComb.one F)
  | .summand coeff v F => return .comb (LinComb.summand (.integer coeff) v F)
  | .linear a F => ((← find a).linear F).map .comb
  | .add a b => (← find a).add (← find b)
  | .sub a b => (← find a).sub (← find b)
  | .neg a => (← find a).neg
  | .mul a k => (← find a).mul k
  | .rmul k a => (← find a).rmul k
  | .isZero a => (← find a).isZero.map flag
  | .size a => (← find a).size.map fun n => .json (.int n)
  | .vars a =>
      (← find a).vars.map fun vs => .json (.arr (vs.map Variable.encode))
  | .text a => (← find a).text.map words
  | .literal a => (← find a).literal.map words
  | .toCanonical a => (← find a).toCanonical
  | .toLinComb a => (← find a).toLinComb
  | .get a v => ((← find a).get v).map .element
  | .contains a v => ((← find a).contains v).map flag
  | .quad a b => return .quad (← find a) (← find b)
  | .product a F => (← find a).product F
  | .evaluate a witness F =>
      let x ← find a
      (evaluateWith x.hasValue witness F fun w => x.evaluate w F).map .element
  | .isSatisfied a witness F =>
      let x ← find a
      (evaluateWith x.isConstraint witness F fun w => x.isSatisfied w F).map flag
  | .equals a b =>
      let equal ← (← find a).equals (← find b)
      return .json (.arr [.bool equal, .bool !equal])
  | .distinct members =>
      (Operand.distinct (← members.mapM find)).map fun n => .json (.int n)
  | .assign a => throw (← find a).assign
  | .define a b F =>
      let v ← find a
      let q ← (← find b).product F
      (v.linear F).map fun l => .constraint q (.comb l) none
  | .constraint a b F =>
      let x ← find a
      let y ← find b
      let q ← x.product F
      (y.linear F).map fun l => .constraint q (.comb l) none
  | .tagged a b tag =>
      let q ← find a
      let l ← find b
      (ErrorTag.decode tag).map fun e => .constraint q l e
  | .directive inputs outputs name parameters =>
      let inputs ← inputs.mapM find
      let outputs ← outputs.mapM find
      Operand.makeDirective inputs outputs ⟨name, ← parameters.items⟩
  | .log format groups =>
      let groups ← groups.mapM fun g => (g.2.mapM find).map fun xs => (g.1, xs)
      return .log format groups
  | .block body => return .block (← body.mapM find)

end Step

namespace Calculation

def advance (registers : List Operand) (step : Except Fault Step) :
    Except Fault Json × Operand :=
  let result := step.bind (Step.result registers)
  match result with
  | .error fault => (.error fault, Operand.nothing)
  | .ok x =>
      match x.report with
      | .error fault => (.error fault, Operand.nothing)
      | .ok data => (.ok data, x)

/-- The reports of a row of steps after the given registers. A step that could not be read fails with
the fault of its reading. -/
def run (registers : List Operand) : List (Except Fault Step) → List (Except Fault Json)
  | [] => []
  | step :: rest =>
      let (report, x) := advance registers step
      report :: run (registers ++ [x]) rest

end Calculation

end Circuit

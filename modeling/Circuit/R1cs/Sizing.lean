import Circuit.Field.Bytes
import Circuit.Program.Basic
import Circuit.Variable.Place

/-!
# The size of a constraint file

Before a byte of a constraint file is written, one pass over the constraints finds the wires that
they use and the sizes that the file declares.

* `Sizing.compute` fails for the first public variable outside the public section, and for nothing
  else.
* `sortedWires` lists wires in ascending order without repetitions.
* `refusal` is the fault that ends the pass when the count of returned values is one that no file can hold: the
  pass still looks for wires then, and may find a variable outside the public section.
-/

namespace Circuit.R1cs

structure Header where
  fieldSize : Nat
  prime : Bytes
  wireCount : Nat
  publicOutputs : ReturnCount
  publicInputs : Nat
  privateInputs : Nat
  labelCount : Nat
  constraintCount : Nat
deriving Repr

def Header.sectionSize (h : Header) : Nat := 4 + h.fieldSize + 4 * 4 + 8 + 4

/-- What the first pass finds: the header, the size of the public section, the wires in ascending
order, and the byte count of the constraint section. -/
structure Sizing where
  header : Header
  shift : Nat
  wires : List Nat
  constraintsSize : Nat
deriving Repr

/-- Drops repetitions from an ascending row. -/
def dropRepeats : List Nat → List Nat
  | a :: b :: rest => if a = b then dropRepeats (b :: rest) else a :: dropRepeats (b :: rest)
  | short => short

def sortedWires (wires : List Nat) : List Nat :=
  dropRepeats (wires.mergeSort fun a b => decide (a ≤ b))

def wiresOfTerms (shift : Nat) : List Term → Except Fault (List Nat)
  | [] => .ok []
  | t :: rest =>
      match t.var.wire shift with
      | .error fault => .error fault
      | .ok wire => (wiresOfTerms shift rest).map (wire :: ·)

/-- The terms of a constraint, in the order in which they are visited. -/
def termsOf (c : Constraint) : List Term := c.combs.flatMap LinComb.terms

/-- The byte count of a combination: its count of terms, and a wire and a coefficient for each. -/
def combSize (width : Nat) (a : LinComb) : Nat := 4 + a.size * (4 + width)

def constraintSize (width : Nat) (c : Constraint) : Nat :=
  c.combs.foldr (fun a total => combSize width a + total) 0

def bodySize (width : Nat) (constraints : List Constraint) : Nat :=
  constraints.foldr (fun c total => constraintSize width c + total) 0

/-- Finds the sizes of the file of constraints behind an interface. -/
def Sizing.compute (F : Field) (i : Interface) (constraints : List Constraint) :
    Except Fault Sizing :=
  match wiresOfTerms i.publicCount (constraints.flatMap termsOf) with
  | .error fault => .error fault
  | .ok used =>
      let width := F.byteWidth
      let wires := sortedWires (0 :: used)
      let header : Header :=
        ⟨width, Bytes.littleEndian width F.modulus, wires.length, i.returnCount,
          i.publicParameters.length, i.privateCount, wires.length, constraints.length⟩
      .ok ⟨header, i.publicCount, wires, bodySize width constraints⟩

/-- The first fault of looking for the wires of constraints when the public section has the given size,
if there is one. -/
def refusal (size : Json) (constraints : List Constraint) : Option Fault :=
  (constraints.flatMap termsOf).findSome? fun t =>
    match t.var.placeIn size with
    | .error fault => some fault
    | .ok _ => none

end Circuit.R1cs

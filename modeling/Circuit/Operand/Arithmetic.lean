import Circuit.Json.Arithmetic
import Circuit.Operand.Equality

/-!
# Arithmetic of operands

The operations of linear and canonical combinations, of elements and of plain data, as far as operands
have them. The right operand of a sum may be a variable, which stands for itself with coefficient
one. An integer beside an element is taken into the field of the element.

* `Operand.add`, `sub`, `neg`, `mul` and `rmul` calculate; an operand without such an operation is
  `unsupported`.
* `Operand.canonical` and the look-ups are for combinations only.
* `Operand.assign` always fails.
-/

namespace Circuit.Operand

/-- A sum. The right operand of a combination is read as one over the scalar field. -/
def add : Operand → Operand → Except Fault Operand
  | .comb a, y => (y.linear Field.scalars).map fun b => .comb (a.add b)
  | .element x, y =>
      match y.integer? with
      | some n => .ok (.element (x.add n))
      | none => .error .unsupported
  | .json data, .element y =>
      match integer? (.json data) with
      | some n => .ok (.element (y.add n))
      | none => .error .unsupported
  | .json data, .json other => (data.add other).map .json
  | _, _ => .error .unsupported

def sub : Operand → Operand → Except Fault Operand
  | .comb a, y => (y.linear Field.scalars).map fun b => .comb (a.sub b)
  | .element x, y =>
      match y.integer? with
      | some n => .ok (.element (x.sub n))
      | none => .error .unsupported
  | .json data, .element y =>
      match integer? (.json data) with
      | some n => .ok (.element (y.neg.add n))
      | none => .error .unsupported
  | .json data, .json other => (data.sub other).map .json
  | _, _ => .error .unsupported

def neg : Operand → Except Fault Operand
  | .comb a => .ok (.comb a.neg)
  | .element x => .ok (.element x.neg)
  | .json data => data.neg.map .json
  | _ => .error .unsupported

/-- The product of plain data with a scalar, on either side. -/
def scaleJson (k : Scalar) (data : Json) : Except Fault Operand :=
  match k, integer? (.json data) with
  | .integer n, _ => (data.scale n).map .json
  | .element y, some n => .ok (.element (y.mul n))
  | .element _, none => .error .unsupported

def mul (k : Scalar) : Operand → Except Fault Operand
  | .comb a => .ok (.comb (a.mul k))
  | .element x => .ok (.element (x.mul k.toInt))
  | .json data => scaleJson k data
  | _ => .error .unsupported

def rmul (k : Scalar) : Operand → Except Fault Operand
  | .comb a => (LinComb.rmul k a).map .comb
  | .element x =>
      match k with
      | .integer n => .ok (.element (x.mul n))
      | .element y => .ok (.element (y.mul x.toInt))
  | .json data => scaleJson k data
  | _ => .error .unsupported

def isZero : Operand → Except Fault Bool
  | .comb a => .ok a.isZero
  | _ => .error .noOperation

/-- The count of the members of a combination or of plain data. -/
def size : Operand → Except Fault Nat
  | .comb a => .ok a.size
  | .canonical c => .ok c.size
  | .json data =>
      match data.items? with
      | some items => .ok items.length
      | none => .error .unsupported
  | _ => .error .unsupported

def vars : Operand → Except Fault (List Variable)
  | .comb a => .ok a.vars
  | _ => .error .noOperation

def toCanonical : Operand → Except Fault Operand
  | .comb a => .ok (.canonical a.canonical)
  | _ => .error .noOperation

def toLinComb : Operand → Except Fault Operand
  | .canonical c => .ok (.comb c.toLinComb)
  | _ => .error .noOperation

def get (v : Variable) : Operand → Except Fault Element
  | .canonical c => c.get v
  | .json (.obj _) => .error (.missingValue v)
  | _ => .error .unsupported

/-- Whether a variable is a member: it has a coefficient in a canonical form, and is never among terms
or plain data. -/
def contains (v : Variable) : Operand → Except Fault Bool
  | .canonical c => .ok (c.contains v)
  | .comb _ => .ok false
  | .json (.arr _) => .ok false
  | .json (.obj _) => .ok false
  | _ => .error .unsupported

/-- The fault of an assignment to a part of an operand. -/
def assign : Operand → Fault
  | .var _ => .immutable "Variable"
  | .comb _ => .immutable "LinComb"
  | .quad _ _ => .immutable "QuadComb"
  | .constraint _ _ _ => .immutable "Constraint"
  | .directive _ _ _ => .immutable "Directive"
  | .log _ _ => .immutable "Log"
  | .block _ => .immutable "Block"
  | _ => .noOperation

end Circuit.Operand

import Circuit.LinComb
import Circuit.Witness.Basic

/-!
# Quadratic combinations and evaluation

A quadratic combination is the product of two linear ones. Both are evaluated under a witness, in a
field that need not be the field of their coefficients: a coefficient that passes for an element of the field
multiplies as it does in its own, and any other one is taken there first.

* `LinComb.evaluate` fails for the first variable without a value; the constant wire always
  counts as one.
* `QuadComb.evaluate` is the product of the two sides, the left side first.
-/

namespace Circuit

structure QuadComb where
  left : LinComb
  right : LinComb
deriving DecidableEq, Repr

/-- The value of a variable as an element of `F`. -/
def Witness.element (w : Witness) (F : Field) (v : Variable) : Except Fault Element :=
  if v.isOne then .ok (F.element 1) else (w.get v).map F.element

/-- The value of a row of terms added to `total`. -/
def evaluateTerms (w : Witness) (F : Field) (total : Element) : List Term → Except Fault Element
  | [] => .ok total
  | t :: rest =>
      match w.element F t.var with
      | .error fault => .error fault
      | .ok x => evaluateTerms w F (total.add ((t.coeff.coerce F).mul x.toInt).toInt) rest

namespace LinComb

def evaluate (a : LinComb) (w : Witness) (F : Field) : Except Fault Element :=
  evaluateTerms w F (F.element 0) a.terms

end LinComb

namespace QuadComb

/-- A linear combination as the product of one and itself. -/
def ofLinComb (a : LinComb) (F : Field) : QuadComb := ⟨LinComb.one F, a⟩

def evaluate (q : QuadComb) (w : Witness) (F : Field) : Except Fault Element :=
  match q.left.evaluate w F with
  | .error fault => .error fault
  | .ok x =>
      match q.right.evaluate w F with
      | .error fault => .error fault
      | .ok y => .ok (x.mul y.toInt)

def same (p q : QuadComb) : Bool := p.left.same q.left && p.right.same q.right

/-- How the texts of two sides make the text of a product. -/
def join (left right : Text) : Text := "(" ++ left ++ ") * (" ++ right ++ ")"

def text (q : QuadComb) : Text := join q.left.text q.right.text

def literal (q : QuadComb) : Text := "QuadComb(" ++ q.text ++ ")"

end QuadComb

end Circuit

import Circuit.Field.Text
import Circuit.Variable.Reading

/-!
# Linear combinations

A linear combination is an ordered row of terms, each a coefficient and a variable. Before it is put
into canonical form a variable may occur in several terms.

* `LinComb.add`, `sub`, `neg`, `mul` never look at the variables; coefficients keep their fields.
* `LinComb.rmul` is the product with the scalar on the left, which exists for integers only.
* `LinComb.text` writes a combination.
-/

namespace Circuit

/-- One summand of a linear combination. -/
structure Term where
  var : Variable
  coeff : Element
deriving DecidableEq, Repr

/-- A factor of a linear combination: a plain integer, or an element of some field. -/
inductive Scalar
  | integer (n : Int)
  | element (x : Element)
deriving DecidableEq, Repr

namespace Scalar

def toInt : Scalar → Int
  | .integer n => n
  | .element x => x.toInt

/-- The scalar as an element of `F`: an element of any field is kept as it is, an integer is
reduced. -/
def coefficient (F : Field) : Scalar → Element
  | .integer n => F.element n
  | .element x => x

/-- Whether the scalar passes for an element of `F`, as no integer does. -/
def isInstance (F : Field) : Scalar → Bool
  | .integer _ => false
  | .element x => x.isInstance F

/-- The scalar as an element that passes for one of `F`. -/
def coerce (F : Field) : Scalar → Element
  | .integer n => F.element n
  | .element x => x.coerce F

end Scalar

structure LinComb where
  terms : List Term
deriving DecidableEq, Repr

namespace Term

def neg (t : Term) : Term := ⟨t.var, t.coeff.neg⟩

def mul (t : Term) (n : Int) : Term := ⟨t.var, t.coeff.mul n⟩

def text (t : Term) : String := t.coeff.compact ++ " * " ++ t.var.text

/-- What equality of combinations looks at: the variable and the integer of the coefficient. -/
def key (t : Term) : Variable × Nat := (t.var, t.coeff.value)

end Term

namespace LinComb

def zero : LinComb := ⟨[]⟩

def summand (coeff : Scalar) (v : Variable) (F : Field) : LinComb :=
  ⟨[⟨v, coeff.coefficient F⟩]⟩

def ofVariable (v : Variable) (F : Field) : LinComb :=
  summand (.integer 1) v F

def one (F : Field) : LinComb :=
  ofVariable .one F

def isZero (a : LinComb) : Bool := a.terms.isEmpty

def size (a : LinComb) : Nat := a.terms.length

/-- The variables of the terms, in order and with repetitions. -/
def vars (a : LinComb) : List Variable := a.terms.map (·.var)

def add (a b : LinComb) : LinComb := ⟨a.terms ++ b.terms⟩

def neg (a : LinComb) : LinComb := ⟨a.terms.map Term.neg⟩

def sub (a b : LinComb) : LinComb := ⟨a.terms ++ b.terms.map Term.neg⟩

/-- The product with a scalar on the right. -/
def mul (a : LinComb) (k : Scalar) : LinComb := ⟨a.terms.map fun t => t.mul k.toInt⟩

/-- The product with a scalar on the left: elements of fields multiply nothing but elements. -/
def rmul (k : Scalar) (a : LinComb) : Except Fault LinComb :=
  match k with
  | .integer _ => .ok (a.mul k)
  | .element _ => .error .unsupported

/-- What equality looks at. -/
def key (a : LinComb) : List (Variable × Nat) := a.terms.map Term.key

/-- Combinations are equal when their terms have the same variables and the same integers as
coefficients, in the same order. -/
def same (a b : LinComb) : Bool := a.key = b.key

def text (a : LinComb) : String :=
  if a.isZero then "0" else String.intercalate " + " (a.terms.map Term.text)

def literal (a : LinComb) : String := "LinComb(" ++ a.text ++ ")"

end LinComb

end Circuit

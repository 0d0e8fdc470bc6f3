import Circuit.Fault

/-!
# Prime fields

A field is a class of elements with its modulus. A class may be derived from others, and its elements then pass
for elements of these without calculating as they do. An element holds its field and a reduced value, so that
elements of different fields can meet: an operation reduces by the modulus of its left operand. The modulus need
not be prime; every operation but division is then arithmetic modulo it.

* `Field.element_value`: an element made from an integer has its residue as value.
* `Field.element_ofValue`: an element is the element of its own value.
* `Element.coerce` takes an element to a field, unless it passes for one of that field already.
* `Element.power` exists for every exponent that is not negative.
-/

namespace Circuit

/-- A class of elements. A number tells classes of one modulus apart. -/
structure FieldClass where
  modulus : Nat
  number : Nat
deriving DecidableEq, Repr

/-- A field of residues: a class, and the classes that it is derived from, whatever their moduli. -/
structure Field extends FieldClass where
  ancestors : List FieldClass
  positive : 0 < modulus
deriving DecidableEq, Repr

/-- An element of a field, as the reduced residue. -/
structure Element where
  field : Field
  value : Nat
  reduced : value < field.modulus
deriving DecidableEq, Repr

namespace Field

/-- The field that the curve bn128 is defined over. -/
def base : Field :=
  ⟨⟨21888242871839275222246405745257275088696311157297823662689037894645226208583, 1⟩, [], by decide⟩

/-- The field of coefficients unless another is named: the scalars of the curve bn128. Their class is derived
from that of the base field. -/
def scalars : Field :=
  ⟨⟨21888242871839275222246405745257275088548364400416034343698204186575808495617, 1⟩,
    [base.toFieldClass], by decide⟩

/-- The field that is made for a modulus. Its class is derived from that of the base field too. -/
def residues (modulus : Nat) (positive : 0 < modulus) : Field :=
  ⟨⟨modulus, 0⟩, [base.toFieldClass], positive⟩

/-- Whether the class of a field is that of `G` or is derived from it. -/
def derives (F G : Field) : Bool := G.toFieldClass ∈ F.toFieldClass :: F.ancestors

def maxValue (F : Field) : Nat :=
  F.modulus - 1

def byteWidth (F : Field) : Nat :=
  (F.modulus.log2 + 8) / 8

/-- The element that an integer stands for. -/
def element (F : Field) (n : Int) : Element :=
  ⟨F, (n % F.modulus).toNat, by
    have positive : (0 : Int) < F.modulus := Int.natCast_pos.2 F.positive
    have low := Int.emod_nonneg n (Int.ne_of_gt positive)
    have high := Int.emod_lt_of_pos n positive
    omega⟩

theorem element_value (F : Field) (n : Int) : ((F.element n).value : Int) = n % F.modulus := by
  have positive : (0 : Int) < F.modulus := Int.natCast_pos.2 F.positive
  exact Int.toNat_of_nonneg (Int.emod_nonneg n (Int.ne_of_gt positive))

/-- Nothing but the field and the integer makes an element. -/
theorem element_ofValue (x : Element) : x.field.element x.value = x := by
  have h : (x.value : Int) % x.field.modulus = x.value :=
    Int.emod_eq_of_lt (Int.natCast_nonneg _) (Int.ofNat_lt.2 x.reduced)
  cases x
  simp [element] at h ⊢
  omega

end Field

namespace Element

def toInt (x : Element) : Int :=
  x.value

/-- The element of the same field that an integer stands for. -/
def sibling (x : Element) (n : Int) : Element :=
  x.field.element n

def add (x : Element) (n : Int) : Element := x.sibling (x.toInt + n)

def sub (x : Element) (n : Int) : Element := x.sibling (x.toInt - n)

def mul (x : Element) (n : Int) : Element := x.sibling (x.toInt * n)

def neg (x : Element) : Element := x.sibling (-x.toInt)

/-- Euclid's algorithm on `low < high`, with the multiples of the number to invert that they stand
for. It stops as soon as `low` is at most one. -/
def euclid (low high : Nat) (lowMultiple highMultiple : Int) : Int :=
  if _h : low ≤ 1 then lowMultiple
  else euclid (high % low) low (highMultiple - lowMultiple * (high / low : Nat)) lowMultiple
termination_by low
decreasing_by exact Nat.mod_lt _ (by omega)

/-- The inverse of an integer modulo `m`, and zero for a multiple of `m`. -/
def inverse (m : Nat) (n : Int) : Int :=
  let residue := (n % m).toNat
  if residue = 0 then 0 else euclid residue m 1 0 % m

/-- Division by multiplication with the inverse; division by zero gives zero. -/
def div (x : Element) (n : Int) : Element := x.sibling (x.toInt * inverse x.field.modulus n)

def pow (x : Element) (n : Nat) : Element :=
  if _h : n = 0 then x.sibling 1
  else if n = 1 then x
  else if n % 2 = 0 then (x.mul x.toInt).pow (n / 2)
  else ((x.mul x.toInt).pow (n / 2)).mul x.toInt
termination_by n
decreasing_by all_goals omega

/-- A power with an integer exponent. The exponent is halved until it is 0 or 1, and half of a negative one,
rounded down, stays negative. -/
def power (x : Element) (n : Int) : Except Fault Element :=
  if n < 0 then .error .endless else .ok (x.pow n.toNat)

/-- The element of `F` with the same integer. -/
def recast (F : Field) (x : Element) : Element := F.element x.toInt

theorem recast_self (x : Element) : x.recast x.field = x :=
  Field.element_ofValue x

/-- Whether an element passes for an element of `F`. -/
def isInstance (F : Field) (x : Element) : Bool := x.field.derives F

/-- The element that stands for `x` in `F`: the element itself if it passes for one of `F`, and otherwise the
element of `F` with its integer. -/
def coerce (F : Field) (x : Element) : Element :=
  if x.isInstance F then x else x.recast F

end Element

end Circuit

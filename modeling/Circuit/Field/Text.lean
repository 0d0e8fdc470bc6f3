import Circuit.Fault
import Circuit.Field.Basic
import Circuit.Json.Text

/-!
# Field elements as text

Elements are written as decimal integers, and shown to people as the integer of least absolute value
that they stand for.

* `Field.read` reads an element from JSON data; `Field.parse` from a text.
* `Element.compact` is the form for people.
-/

namespace Circuit

/-- The integer that JSON data stands for: a text is read, a truth value is 0 or 1, and a
floating-point number loses its fraction. -/
def Json.integer : Json → Except Fault Int
  | .bool b => .ok (if b then 1 else 0)
  | .int n => .ok n
  | .str s =>
      match s.scalars?.bind Decimal.readInt? with
      | some n => .ok n
      | none => .error .notInteger
  | .real (.infinite _) => .error .infiniteNumber
  | .real x =>
      match x.truncate? with
      | some n => .ok n
      | none => .error .notInteger
  | _ => .error .notNumeric

namespace Field

/-- Reads an element from JSON data; the integer has to be reduced already. -/
def read (F : Field) (data : Json) : Except Fault Element :=
  match data.integer with
  | .error fault => .error fault
  | .ok n =>
      if 0 ≤ n ∧ n < F.modulus then .ok (F.element n)
      else .error (.outsideField data.display)

def parse (F : Field) (text : Text) : Except Fault Element :=
  F.read (.str text)

end Field

namespace Element

def text (x : Element) : String :=
  Decimal.ofNat x.value

/-- The text of an element for people: a value above half of the modulus is shown as the negative
number between parentheses. -/
def compact (x : Element) : String :=
  if x.value ≤ (x.field.modulus - 1) / 2 then x.text
  else "(-" ++ Decimal.ofNat (x.field.modulus - x.value) ++ ")"

end Element

end Circuit

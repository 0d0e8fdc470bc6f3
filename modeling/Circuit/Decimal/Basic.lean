import Circuit.Text.Blank
import Circuit.Text.Digit

/-!
# Decimal text of integers

Writing integers in decimal and reading them back. A reader accepts the decimal digits of every
script, and refuses a number of more than `digitLimit` digits.

* `digits`, `ofNat`, `ofInt` write.
* `readInt?` reads an integer with blanks, sign and grouped digits; `plainDigits?` and `value` read
  a bare run of digits.
-/

namespace Circuit.Decimal

open Circuit.Text

/-- The largest count of digits that is read or written. -/
def digitLimit : Nat := 4300

/-- The decimal digits of a natural number, most significant first. -/
def digits (n : Nat) : List Char :=
  Nat.toDigits 10 n

def ofNat (n : Nat) : String :=
  String.ofList (digits n)

def ofInt : Int → String
  | .ofNat n => ofNat n
  | .negSucc n => "-" ++ ofNat (n + 1)

/-- Whether an integer has few enough digits to be written. -/
def isWritable (n : Int) : Bool :=
  n.natAbs < Nat.pow 10 digitLimit

/-- The number that a list of digits denotes, most significant first. -/
def value (ds : List Nat) : Nat :=
  ds.foldl (fun n d => 10 * n + d) 0

/-- The values of a run of digits; nothing if some character is no digit. -/
def plainDigits? : List Char → Option (List Nat)
  | [] => some []
  | c :: cs =>
      match digitValue? c, plainDigits? cs with
      | some d, some ds => some (d :: ds)
      | _, _ => none

/-- The values of one or more digits, between which single underscores may stand. -/
def groupedDigits? : List Char → Option (List Nat)
  | [] => none
  | [c] => (digitValue? c).map ([·])
  | c :: '_' :: cs =>
      match digitValue? c, groupedDigits? cs with
      | some d, some ds => some (d :: ds)
      | _, _ => none
  | c :: cs =>
      match digitValue? c, groupedDigits? cs with
      | some d, some ds => some (d :: ds)
      | _, _ => none

/-- Reads digits with optional underscores, at most `digitLimit` of them. -/
def readGrouped? (cs : List Char) : Option Nat :=
  match groupedDigits? cs with
  | none => none
  | some ds => if ds.length ≤ digitLimit then some (value ds) else none

/-- Reads an integer: blanks around it, an optional sign, digits with optional underscores. -/
def readInt? (cs : List Char) : Option Int :=
  match stripBy isNumberBlank cs with
  | '-' :: ds => (readGrouped? ds).map fun n => -(n : Int)
  | '+' :: ds => (readGrouped? ds).map fun n => (n : Int)
  | ds => (readGrouped? ds).map fun n => (n : Int)

end Circuit.Decimal

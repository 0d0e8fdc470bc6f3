import Circuit.Text.Basic
import Circuit.Text.Printable

/-!
# Quoted text

A text between quotation marks, with every code point that could not be read back or seen replaced
by an escape. Single marks are used, unless the text holds a single mark and no double one.

* `quoted` is the quoted form of a text, which holds characters only.
-/

namespace Circuit.Text

/-- The lower-case hexadecimal digits of a number, at least `width` of them. -/
def hexDigits (width n : Nat) : List Char :=
  let digits := Nat.toDigits 16 n
  List.replicate (width - digits.length) '0' ++ digits

/-- One character of a text that stands between the marks `mark`. -/
def quotedChar (mark c : Char) : List Char :=
  if c = mark ∨ c = '\\' then ['\\', c]
  else if c = '\t' then ['\\', 't']
  else if c = '\n' then ['\\', 'n']
  else if c = '\r' then ['\\', 'r']
  else if 0x20 ≤ c.toNat ∧ c.toNat < 0x7f then [c]
  else if isPrintable c then [c]
  else if c.toNat < 0x100 then '\\' :: 'x' :: hexDigits 2 c.toNat
  else if c.toNat < 0x10000 then '\\' :: 'u' :: hexDigits 4 c.toNat
  else '\\' :: 'U' :: hexDigits 8 c.toNat

def quotedPoint (mark : Char) : CodePoint → List Char
  | .scalar c => quotedChar mark c
  | .surrogate k => '\\' :: 'u' :: hexDigits 4 (CodePoint.surrogate k).toNat

def quotationMark (t : Text) : Char :=
  if .scalar '\'' ∈ t.points ∧ .scalar '"' ∉ t.points then '"' else '\''

def quoted (t : Text) : String :=
  let mark := quotationMark t
  String.ofList (mark :: t.points.flatMap (quotedPoint mark) ++ [mark])

end Circuit.Text

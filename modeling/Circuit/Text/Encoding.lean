import Circuit.Text.Basic

/-!
# Encodings of a text

A text that arrives as bytes has units of one, two or four bytes. A text of JSON begins with two
characters below 256, so the places of the zero bytes among the first four tell which units it has.
Bytes of one-byte units are at hand as characters already; bytes of wider units are taken apart here.

* `Encoding.guess` finds the encoding.
* `Encoding.read?` takes a string, as whose bytes a text arrived, to that text.
-/

namespace Circuit

/-- The width of the units of a text and, for wider units, whether the highest byte comes first. -/
inductive Encoding
  | utf8
  | utf16 (highFirst : Bool)
  | utf32 (highFirst : Bool)
deriving DecidableEq, Repr

namespace Encoding

/-- The encoding that the zero bytes at the start of a text show. -/
def guess : List UInt8 → Encoding
  | a :: b :: c :: d :: _ =>
      if a = 0 then (if b = 0 then .utf32 true else .utf16 true)
      else if b = 0 then (if c = 0 ∧ d = 0 then .utf32 false else .utf16 false)
      else .utf8
  | [a, b] => if a = 0 then .utf16 true else if b = 0 then .utf16 false else .utf8
  | _ => .utf8

def unit (highFirst : Bool) (bytes : List UInt8) : Nat :=
  (if highFirst then bytes else bytes.reverse).foldl (fun n b => 256 * n + b.toNat) 0

/-- The units of two bytes each; nothing if a byte is left over. -/
def units16? (highFirst : Bool) : List UInt8 → Option (List Nat)
  | [] => some []
  | [_] => none
  | a :: b :: rest => (units16? highFirst rest).map (unit highFirst [a, b] :: ·)

/-- The units of four bytes each; nothing if a byte is left over. -/
def units32? (highFirst : Bool) : List UInt8 → Option (List Nat)
  | [] => some []
  | a :: b :: c :: d :: rest => (units32? highFirst rest).map (unit highFirst [a, b, c, d] :: ·)
  | _ => none

/-- Joins the halves of pairs among units of sixteen bits. -/
def joinPairs : List Nat → List CodePoint
  | high :: low :: rest =>
      match CodePoint.pair? high low with
      | some p => p :: joinPairs rest
      | none => CodePoint.ofNat high :: joinPairs (low :: rest)
  | [n] => [CodePoint.ofNat n]
  | [] => []

/-- The text of bytes whose units are wider than one byte. -/
def decode? (bytes : List UInt8) : Encoding → Option Text
  | .utf8 => none
  | .utf16 highFirst => (units16? highFirst bytes).map fun units => ⟨joinPairs units⟩
  | .utf32 highFirst =>
      match units32? highFirst bytes with
      | none => none
      | some units =>
          if units.all fun n => decide (n < 0x110000) then some ⟨units.map CodePoint.ofNat⟩ else none

/-- The characters without a byte order mark in front. -/
def dropMark : List Char → List Char
  | '\ufeff' :: rest => rest
  | cs => cs

/-- The text that the bytes of a string stand for. A byte order mark in front of one-byte units is no
part of it. -/
def read? (s : String) : Option Text :=
  match guess ((s.toList.take 4).flatMap String.utf8EncodeChar) with
  | .utf8 => some ⟨(dropMark s.toList).map .scalar⟩
  | wide => wide.decode? (s.toList.flatMap String.utf8EncodeChar)

end Encoding

end Circuit

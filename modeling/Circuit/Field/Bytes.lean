import Circuit.Fault
import Circuit.Field.Basic
import Circuit.Json.Text

/-!
# Byte codec

Natural numbers as bytes of fixed width, least significant byte first.

* `littleEndian` writes, `ofLittleEndian` reads; `length_littleEndian` and
  `ofLittleEndian_littleEndian` say how they fit.
* `fit` refuses what has no room in a width, `word` what has none in a fixed place of a file.
* `encode` is `fit` for any two integers: there is no negative number or width, and no width that is beyond the
  size of all rows. `encodeAsked` takes the width as JSON data.
-/

namespace Circuit

abbrev Bytes := List UInt8

namespace Bytes

/-- The lowest `width` bytes of a number, least significant first. -/
def littleEndian : Nat → Nat → Bytes
  | 0, _ => []
  | width + 1, n => UInt8.ofNat n :: littleEndian width (n / 256)

/-- The number that bytes denote, least significant first. -/
def ofLittleEndian : Bytes → Nat
  | [] => 0
  | b :: rest => b.toNat + 256 * ofLittleEndian rest

/-- How many numbers `width` bytes can denote. -/
def capacity (width : Nat) : Nat := Nat.pow 256 width

theorem capacity_succ (width : Nat) : capacity (width + 1) = capacity width * 256 := rfl

theorem length_littleEndian (width n : Nat) : (littleEndian width n).length = width := by
  induction width generalizing n with
  | zero => rfl
  | succ width ih => simp [littleEndian, ih]

/-- The bytes of a number that fits denote it. -/
theorem ofLittleEndian_littleEndian (width n : Nat) (fits : n < capacity width) :
    ofLittleEndian (littleEndian width n) = n := by
  induction width generalizing n with
  | zero =>
      have h : n = 0 := Nat.lt_one_iff.1 fits
      simp [littleEndian, ofLittleEndian, h]
  | succ width ih =>
      have h : n / 256 < capacity width := by
        have := capacity_succ width
        omega
      simp only [littleEndian, ofLittleEndian, ih _ h, UInt8.toNat_ofNat']
      omega

/-- The bytes of a natural number in a width that may be too small for it. -/
def fit (width n : Nat) : Except Fault Bytes :=
  if n < capacity width then .ok (littleEndian width n) else .error (.tooWide n (Decimal.ofNat width))

/-- One more than the greatest size of a row of bytes. -/
def sizeBound : Nat := 0x7fffffffffffffdf

/-- The bytes of an integer in a given width. A negative integer is refused first, then a width so far from zero
that it is no size or negative of one, then any other negative width. -/
def encode (n width : Int) : Except Fault Bytes :=
  if n < 0 then .error (.negativeBytes n)
  else if sizeBound ≤ width ∨ width < -0x8000000000000000 then .error (.tooWide n (Decimal.ofInt width))
  else if width < 0 then .error .negativeWidth
  else fit width.toNat n.toNat

/-- The width that JSON data asks for. -/
def widthOf? : Json → Option Int
  | .int width => some width
  | .bool b => some (if b then 1 else 0)
  | _ => none

/-- The bytes of an integer in a width that is asked for in JSON data. A fault shows the width as it was asked
for, and there is no memory for some widths that are sizes. -/
def encodeAsked (n : Int) (asked : Json) : Except Fault Bytes :=
  match widthOf? asked with
  | none => .error (if n < 0 then .negativeBytes n else .notNumeric)
  | some width =>
      if 0 ≤ n ∧ memoryBound ≤ width ∧ width < sizeBound then .error .noMemory
      else
        match encode n width with
        | .error (.tooWide n _) => .error (.tooWide n asked.literal)
        | outcome => outcome

/-- The bytes of an integer in a fixed place of `width` bytes. -/
def word (width : Nat) (n : Nat) : Except Fault Bytes :=
  if n < capacity width then .ok (littleEndian width n) else .error .wordOverflow

end Bytes

def Field.ofBytes (F : Field) (bytes : Bytes) : Element :=
  F.element (Bytes.ofLittleEndian bytes)

end Circuit

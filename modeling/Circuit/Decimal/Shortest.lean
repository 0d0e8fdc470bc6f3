import Circuit.Binary64

/-!
# Shortest decimals

The shortest decimal that lies inside an interval, and of those the one nearest to a given value in
the interval. It gives the text of a binary floating-point number: the fewest digits that
round to the number.

* `Span.nearest?` looks at the two neighbours of the value on one decimal grid.
* `Span.shortest` is the first grid of up to 17 digits with a hit.
* `Binary64.text` writes a number with them.
-/

namespace Circuit.Decimal

/-- An interval `low / den … high / den` around `value / den`, with or without its ends. -/
structure Span where
  low : Nat
  value : Nat
  high : Nat
  den : Nat
  closed : Bool
deriving DecidableEq, Repr

namespace Span

def rescale (s : Span) (power : Int) : Span :=
  if 0 ≤ power then { s with den := s.den * Nat.pow 10 power.toNat }
  else
    let k := Nat.pow 10 (-power).toNat
    { s with low := s.low * k, value := s.value * k, high := s.high * k }

def contains (s : Span) (c : Nat) : Bool :=
  let x := c * s.den
  if s.closed then s.low ≤ x && x ≤ s.high else s.low < x && x < s.high

/-- The integer of the span that is nearest to its value, if one of the value's two neighbours lies
in the span; a tie goes to the even one. -/
def nearest? (s : Span) : Option Nat :=
  let c := s.value / s.den
  let r := s.value - c * s.den
  match 0 < c && s.contains c, s.contains (c + 1) with
  | true, true =>
      if 2 * r < s.den then some c
      else if s.den < 2 * r then some (c + 1)
      else if c % 2 = 0 then some c else some (c + 1)
  | true, false => some c
  | false, true => some (c + 1)
  | false, false => none

/-- The power of ten above the value: `10 ^ (k - 1) ≤ value < 10 ^ k`. -/
def magnitude (s : Span) : Int :=
  if s.den ≤ s.value then (Nat.toDigits 10 (s.value / s.den)).length
  else 1 - ((Nat.toDigits 10 ((s.den + s.value - 1) / s.value - 1)).length : Int)

/-- The shortest decimal of the span as its digits and the place of the decimal point after them:
the value is about `0.d₁d₂… * 10 ^ place`. -/
def shortest (s : Span) : List Char × Int :=
  let k := s.magnitude
  let counts : List Nat := (List.range 17).map (· + 1)
  let hit := counts.findSome? fun (n : Nat) =>
    let power := k - (n : Int)
    ((s.rescale power).nearest?).map fun c => (c, power)
  let (c, power) := hit.getD (0, 0)
  let ds := Nat.toDigits 10 c
  let kept := (ds.reverse.dropWhile (· = '0')).reverse
  (kept, ds.length + power)

end Span

/-- How a number is laid out: which places of the point are written without an exponent, and how
many digits an exponent has at least. -/
structure Layout where
  firstPlace : Int
  lastPlace : Int
  exponentWidth : Nat

/-- Numbers from `0.0001` to below `10 ^ 16` are written without an exponent; an exponent has at
least two digits. -/
def Layout.standard : Layout := ⟨-3, 16, 2⟩

/-- Digits and the place of the point as a text. -/
def Layout.format (layout : Layout) (ds : List Char) (place : Int) : String :=
  if layout.firstPlace ≤ place ∧ place ≤ layout.lastPlace then
    if place ≤ 0 then
      String.ofList ('0' :: '.' :: (List.replicate (-place).toNat '0' ++ ds))
    else
      let whole := ds.take place.toNat
      let zeros := List.replicate (place.toNat - ds.length) '0'
      let rest := ds.drop place.toNat
      String.ofList (whole ++ zeros ++ '.' :: (if rest.isEmpty then ['0'] else rest))
  else
    let e := place - 1
    let fraction := if (ds.drop 1).isEmpty then [] else '.' :: ds.drop 1
    let digits := Nat.toDigits 10 e.natAbs
    let padding := List.replicate (layout.exponentWidth - digits.length) '0'
    let sign := if e < 0 then '-' else '+'
    String.ofList (ds.take 1 ++ fraction ++ 'e' :: sign :: (padding ++ digits))

end Circuit.Decimal

namespace Circuit.Binary64

open Circuit.Decimal

/-- The numbers that round to a finite number: half a unit on each side, a quarter below a power of
two. The ends belong to the interval when the mantissa is even. -/
def span (mantissa : Nat) (exponent : Int) : Span :=
  let below := if mantissa = Nat.pow 2 52 ∧ minExponent < exponent then 1 else 2
  let (unit, den) := fraction 1 (exponent - 2)
  ⟨(4 * mantissa - below) * unit, 4 * mantissa * unit, (4 * mantissa + 2) * unit, den,
    mantissa % 2 = 0⟩

def text : Binary64 → String
  | .undefined => "nan"
  | .infinite negative => if negative then "-inf" else "inf"
  | .finite negative m e =>
      let unsigned :=
        if m = 0 then "0.0"
        else
          let (ds, place) := (span m e).shortest
          Layout.standard.format ds place
      if negative then "-" ++ unsigned else unsigned

end Circuit.Binary64

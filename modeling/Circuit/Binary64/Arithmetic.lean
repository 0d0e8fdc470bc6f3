import Circuit.Binary64

/-!
# Arithmetic of binary floating-point numbers

Sums and products are those of the exact values, rounded once.

* `Binary64.add`, `sub`, `mul` and `neg` calculate.
* `Binary64.ofInt?` is the nearest number to an integer, unless that is beyond all finite numbers.
* `Binary64.isBelow` compares with an integer without rounding it.
-/

namespace Circuit.Binary64

/-- The number nearest to `num / den`; `negative` is the sign that a zero has. -/
def ofRatio (negative : Bool) (num : Int) (den : Nat) : Binary64 :=
  if num = 0 then .finite negative 0 minExponent
  else ofFraction (decide (num < 0)) num.natAbs den

def ratio (negative : Bool) (mantissa : Nat) (exponent : Int) : Int × Nat :=
  let (num, den) := fraction mantissa exponent
  (if negative then -(num : Int) else num, den)

def ofInt? (n : Int) : Option Binary64 :=
  match ofRatio false n 1 with
  | .infinite _ => none
  | x => some x

def neg : Binary64 → Binary64
  | .finite negative m e => .finite (!negative) m e
  | .infinite negative => .infinite (!negative)
  | .undefined => .undefined

/-- A sum. Infinities of different signs have none; a sum of zero is negative when both numbers
are. -/
def add : Binary64 → Binary64 → Binary64
  | .undefined, _ => .undefined
  | _, .undefined => .undefined
  | .infinite s, .infinite t => if s = t then .infinite s else .undefined
  | .infinite s, _ => .infinite s
  | _, .infinite t => .infinite t
  | .finite s m e, .finite t n f =>
      let (a, c) := ratio s m e
      let (b, d) := ratio t n f
      ofRatio (s && t) (a * d + b * c) (c * d)

def sub (x y : Binary64) : Binary64 := x.add y.neg

/-- A product. An infinity times zero is no number. -/
def mul : Binary64 → Binary64 → Binary64
  | .undefined, _ => .undefined
  | _, .undefined => .undefined
  | .infinite s, .infinite t => .infinite (s != t)
  | .infinite s, .finite t n _ => if n = 0 then .undefined else .infinite (s != t)
  | .finite s m _, .infinite t => if m = 0 then .undefined else .infinite (s != t)
  | .finite s m e, .finite t n f =>
      let (a, c) := ratio s m e
      let (b, d) := ratio t n f
      ofRatio (s != t) (a * b) (c * d)

def isBelow (x : Binary64) (n : Int) : Bool :=
  match x with
  | .undefined => false
  | .infinite negative => negative
  | .finite s m e =>
      let (a, c) := ratio s m e
      a < n * c

end Circuit.Binary64

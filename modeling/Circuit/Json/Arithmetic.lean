import Circuit.Binary64.Arithmetic
import Circuit.Fault
import Circuit.Json.Basic

/-!
# Arithmetic of JSON values

Truth values count as 0 and 1. A floating-point number among two numbers makes the other one
floating-point. Texts and arrays are added by putting one behind the other, and multiplied by
repeating them.

* `Json.add`, `sub`, `neg` and `scale` calculate; values that do not go together are `unsupported`.
-/

namespace Circuit.Json

inductive Number
  | exact (n : Int)
  | real (x : Binary64)
deriving DecidableEq, Repr

def asNumber? : Json → Option Number
  | .bool b => some (.exact (if b then 1 else 0))
  | .int n => some (.exact n)
  | .real x => some (.real x)
  | _ => none

def Number.toReal : Number → Except Fault Binary64
  | .real x => .ok x
  | .exact n =>
      match Binary64.ofInt? n with
      | some x => .ok x
      | none => .error .tooLarge

def calculate (exact : Int → Int → Int) (rounded : Binary64 → Binary64 → Binary64) (a b : Json) :
    Except Fault Json :=
  match a.asNumber?, b.asNumber? with
  | some (.exact m), some (.exact n) => .ok (.int (exact m n))
  | some x, some y => do return .real (rounded (← x.toReal) (← y.toReal))
  | _, _ => .error .unsupported

/-- A sum of numbers, or a text or an array behind another. -/
def add : Json → Json → Except Fault Json
  | .str s, .str t => .ok (.str (s ++ t))
  | .arr xs, .arr ys => .ok (.arr (xs ++ ys))
  | a, b => calculate (· + ·) Binary64.add a b

def sub (a b : Json) : Except Fault Json := calculate (· - ·) Binary64.sub a b

def neg (a : Json) : Except Fault Json :=
  match a.asNumber? with
  | some (.exact n) => .ok (.int (-n))
  | some (.real x) => .ok (.real x.neg)
  | none => .error .unsupported

/-- One more than the greatest count. -/
def countBound : Nat := 0x8000000000000000

/-- A row repeated `count` times; a negative count is none. The counts of repetitions and of members
are bounded. -/
def repeated {α : Type} (row : List α) (count : Int) : Except Fault (List α) :=
  if count < -countBound ∨ countBound ≤ count then .error .tooLarge
  else if memoryBound ≤ row.length * count.toNat then .error .noMemory
  else .ok (List.replicate (if row.isEmpty then 0 else count.toNat) row).flatten

/-- A number times an integer, or a text or an array repeated. -/
def scale (n : Int) : Json → Except Fault Json
  | .str s =>
      if countBound ≤ s.length * n.toNat then .error .tooLarge
      else (repeated s.points n).map fun points => .str ⟨points⟩
  | .arr items => (repeated items n).map .arr
  | a => calculate (· * ·) Binary64.mul a (.int n)

end Circuit.Json

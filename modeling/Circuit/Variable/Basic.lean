import Circuit.Decimal.Basic

/-!
# Variables

A variable names a wire of a circuit: the constant wire, a slot of the public section, or a local
wire. Its raw number is an integer: zero, negative, positive.

* `ofRaw_raw`, `raw_ofRaw` and `raw_inj`: variables and integers correspond.
* `Variable.wire?` numbers the variables for a public section of a given size.
* `Variable.precedes`, `atMost`, `follows` and `atLeast` compare the raw numbers.
-/

namespace Circuit

/-- A wire of a circuit. Local wires are numbered from one. -/
inductive Variable
  | one
  | pub (index : Nat)
  | loc (id : Nat) (positive : 0 < id)
deriving Repr

namespace Variable

def raw : Variable → Int
  | .one => 0
  | .pub index => -((index : Int) + 1)
  | .loc id _ => id

/-- The variable of a raw number. -/
def ofRaw : Int → Variable
  | .ofNat 0 => .one
  | .ofNat (n + 1) => .loc (n + 1) (Nat.succ_pos n)
  | .negSucc n => .pub n

/-- The index within its kind; zero for the constant wire. -/
def index : Variable → Nat
  | .one => 0
  | .pub index => index
  | .loc id _ => id

def kindName : Variable → String
  | .one => "one"
  | .pub _ => "public"
  | .loc _ _ => "local"

def isOne : Variable → Bool
  | .one => true
  | _ => false

def isPublic : Variable → Bool
  | .pub _ => true
  | _ => false

def isLocal : Variable → Bool
  | .loc _ _ => true
  | _ => false

/-- The text of a variable: `~one`, `~out_` and the slot, or `_` and the id. -/
def text : Variable → String
  | .one => "~one"
  | .pub index => "~out_" ++ Decimal.ofNat index
  | .loc id _ => "_" ++ Decimal.ofNat id

def literal (v : Variable) : String :=
  "Variable(" ++ v.text ++ ")"

/-- The wire of a variable when the public section has `shift` slots: the constant wire is 0, the
public slots are 1 to `shift`, and the local wires follow. A public variable outside the section
has no wire. -/
def wire? (shift : Nat) : Variable → Option Nat
  | .one => some 0
  | .pub index => if index < shift then some (index + 1) else none
  | .loc id _ => some (id + shift)

def precedes (a b : Variable) : Bool :=
  a.raw < b.raw

def atMost (a b : Variable) : Bool :=
  a.raw ≤ b.raw

def follows (a b : Variable) : Bool :=
  b.raw < a.raw

def atLeast (a b : Variable) : Bool :=
  b.raw ≤ a.raw

theorem raw_ofRaw (n : Int) : (ofRaw n).raw = n := by
  match n with
  | .ofNat 0 => rfl
  | .ofNat (_ + 1) => rfl
  | .negSucc n => exact (Int.negSucc_eq n).symm

theorem ofRaw_raw (v : Variable) : ofRaw v.raw = v := by
  match v with
  | .one => rfl
  | .pub index =>
      have h : raw (.pub index) = Int.negSucc index := (Int.negSucc_eq index).symm
      rw [h]
      rfl
  | .loc (_ + 1) _ => rfl

/-- No two variables have one raw number. -/
theorem raw_inj {a b : Variable} : a.raw = b.raw ↔ a = b :=
  ⟨fun h => by rw [← ofRaw_raw a, ← ofRaw_raw b, h], congrArg raw⟩

/-- Variables are compared by their raw numbers. -/
instance : DecidableEq Variable := fun _ _ => decidable_of_iff _ raw_inj

end Variable

end Circuit

/-!
# Texts

A text is a row of code points. A code point is a character or a surrogate: one half of a pair that
stands for a character beyond sixteen bits. A half without its other half is no character, and yet a
text may hold it, because JSON can write it as an escape.

* `Text.ofString` takes characters into a text, `Text.scalars?` takes them out again:
  `scalars?_ofString` and `scalars?_eq_some`. No characters are lost: `ofString_inj`.
* `CodePoint.pair?` joins two halves.
-/

namespace Circuit

/-- A code point: a character, or the surrogate of a number counted from U+D800. -/
inductive CodePoint
  | scalar (c : Char)
  | surrogate (k : Fin 2048)
deriving DecidableEq, Repr

namespace CodePoint

def toNat : CodePoint → Nat
  | .scalar c => c.toNat
  | .surrogate k => 0xd800 + k

def ofNat (n : Nat) : CodePoint :=
  if h : 0xd800 ≤ n ∧ n < 0xe000 then .surrogate ⟨n - 0xd800, by omega⟩ else .scalar (Char.ofNat n)

def isHighHalf (unit : Nat) : Bool := 0xd800 ≤ unit && unit < 0xdc00

def isLowHalf (unit : Nat) : Bool := 0xdc00 ≤ unit && unit < 0xe000

/-- The code point that two halves stand for together. -/
def pair? (high low : Nat) : Option CodePoint :=
  if isHighHalf high && isLowHalf low then
    some (ofNat (0x10000 + (high - 0xd800) * 0x400 + (low - 0xdc00)))
  else none

end CodePoint

/-- A row of code points. -/
structure Text where
  points : List CodePoint
deriving DecidableEq, Repr

namespace Text

def ofString (s : String) : Text := ⟨s.toList.map .scalar⟩

instance : Coe String Text := ⟨ofString⟩

instance : Append Text := ⟨fun s t => ⟨s.points ++ t.points⟩⟩

instance : Inhabited Text := ⟨⟨[]⟩⟩

def length (t : Text) : Nat := t.points.length

def isEmpty (t : Text) : Bool := t.points.isEmpty

/-- Texts with a separator between them. -/
def join (separator : Text) : List Text → Text
  | [] => ⟨[]⟩
  | [t] => t
  | t :: rest => t ++ separator ++ join separator rest

/-- Texts with a line break after each of them. -/
def lines : List Text → Text
  | [] => ⟨[]⟩
  | t :: rest => t ++ "\n" ++ lines rest

/-- The characters of code points that hold no surrogate. -/
def scalarsOf? : List CodePoint → Option (List Char)
  | [] => some []
  | .scalar c :: rest => (scalarsOf? rest).map (c :: ·)
  | .surrogate _ :: _ => none

/-- The characters of a text that holds no surrogate. -/
def scalars? (t : Text) : Option (List Char) := scalarsOf? t.points

/-- The text as a string of characters, when it holds no surrogate. -/
def toString? (t : Text) : Option String := t.scalars?.map String.ofList

theorem scalarsOf?_map (cs : List Char) : scalarsOf? (cs.map .scalar) = some cs := by
  induction cs with
  | nil => rfl
  | cons c cs ih => simp [scalarsOf?, ih]

theorem scalars?_ofString (s : String) : (ofString s).scalars? = some s.toList :=
  scalarsOf?_map s.toList

theorem ofString_inj {s t : String} : ofString s = ofString t ↔ s = t := by
  constructor
  · intro same
    have chars : some s.toList = some t.toList := by rw [← scalars?_ofString, same, scalars?_ofString]
    exact String.toList_inj.1 (Option.some.inj chars)
  · exact congrArg ofString

theorem ofString_append (s t : String) : ofString (s ++ t) = ofString s ++ ofString t := by
  show ofString (s ++ t) = ⟨(ofString s).points ++ (ofString t).points⟩
  simp [ofString]

theorem scalarsOf?_eq_some {points : List CodePoint} {cs : List Char} :
    scalarsOf? points = some cs ↔ points = cs.map .scalar := by
  constructor
  · intro h
    induction points generalizing cs with
    | nil =>
        cases h
        rfl
    | cons p points ih =>
        cases p with
        | surrogate k => cases h
        | scalar c =>
            obtain ⟨rest, found, rfl⟩ := Option.map_eq_some_iff.1 h
            rw [ih found, List.map_cons]
  · rintro rfl
    exact scalarsOf?_map cs

/-- A text without surrogates is that of a string. -/
theorem scalars?_eq_some {t : Text} {cs : List Char} :
    t.scalars? = some cs ↔ t = ofString (String.ofList cs) := by
  rw [scalars?, scalarsOf?_eq_some, ofString, String.toList_ofList]
  constructor
  · intro h
    cases t
    exact congrArg mk h
  · rintro rfl
    rfl

end Text

end Circuit

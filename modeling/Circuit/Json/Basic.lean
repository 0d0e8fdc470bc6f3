import Circuit.Binary64
import Circuit.Text.Basic

/-!
# JSON values

JSON values with integers and floating-point numbers kept apart and the fields of an object kept in
the order in which they were written. Texts may hold lone surrogates.

* `Json.truth` is the value as a condition, `Json.items?` the members that a loop over it visits.
* `Json.same` compares values: numbers by their value, truth values as 0 and 1, objects without
  regard to the order of their fields.
-/

namespace Circuit

inductive Json
  | null
  | bool (b : Bool)
  | int (n : Int)
  | real (x : Binary64)
  | str (s : Text)
  | arr (items : List Json)
  | obj (fields : List (Text × Json))
deriving Repr

namespace Json

instance : Inhabited Json := ⟨.null⟩

/-- The value as a condition: nothing, zero and everything empty are false. -/
def truth : Json → Bool
  | .null => false
  | .bool b => b
  | .int n => n ≠ 0
  | .real x => !x.isZero
  | .str s => !s.isEmpty
  | .arr items => !items.isEmpty
  | .obj fields => !fields.isEmpty

/-- The members that a loop over the value visits: the items of an array, the code points of a
text, the keys of an object. -/
def items? : Json → Option (List Json)
  | .arr items => some items
  | .str s => some (s.points.map fun p => .str ⟨[p]⟩)
  | .obj fields => some (fields.map fun f => .str f.1)
  | _ => none

/-- The value of the field `key` among the fields of an object. -/
def field? (fields : List (Text × Json)) (key : Text) : Option Json :=
  fields.lookup key

/-- The fields with `key` set to `value`: in its old place if it was there, else at the end. -/
def setField (key : Text) (value : Json) : List (Text × Json) → List (Text × Json)
  | [] => [(key, value)]
  | f :: rest => if f.1 = key then (key, value) :: rest else f :: setField key value rest

/-- The numeric value: of a truth value 0 or 1, of an infinite number its sign. -/
def number? : Json → Option (Rat ⊕ Bool)
  | .bool b => some (.inl (if b then 1 else 0))
  | .int n => some (.inl (n : Rat))
  | .real (.infinite negative) => some (.inr negative)
  | .real x => x.toRat?.map .inl
  | _ => none

/-- Whether two values that are neither text nor compound are equal. -/
def sameAtom (a b : Json) : Bool :=
  match a.number?, b.number? with
  | some x, some y => x = y
  | _, _ => false

mutual

/-- Equality of values: numbers by value, arrays item by item, objects field by field in any
order. -/
def same : Json → Json → Bool
  | .null, .null => true
  | .str s, .str t => s = t
  | .arr xs, .arr ys => sameItems xs ys
  | .obj xs, .obj ys => xs.length = ys.length && sameFields xs ys
  | a, b => sameAtom a b

def sameItems : List Json → List Json → Bool
  | [], [] => true
  | x :: xs, y :: ys => same x y && sameItems xs ys
  | _, _ => false

/-- Whether every field on the left has an equal field on the right. -/
def sameFields : List (Text × Json) → List (Text × Json) → Bool
  | [], _ => true
  | (key, x) :: rest, ys =>
      (match field? ys key with
        | some y => same x y
        | none => false) && sameFields rest ys

end

/-- Whether a value equals itself, which a number that is none does not. What an array or an object holds is
not asked: a member that is found in the same object on both sides is not compared. -/
def sameAsItself : Json → Bool
  | .real .undefined => false
  | _ => true

/-- Whether the value can be a member of a set: only arrays and objects cannot. -/
def isSetMember : Json → Bool
  | .arr _ => false
  | .obj _ => false
  | _ => true

def typeName : Json → String
  | .null => "NoneType"
  | .bool _ => "bool"
  | .int _ => "int"
  | .real _ => "float"
  | .str _ => "str"
  | .arr _ => "list"
  | .obj _ => "dict"

end Json

end Circuit

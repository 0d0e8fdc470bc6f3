import Circuit.Decimal.Basic
import Circuit.Decimal.Shortest
import Circuit.Json.Basic

/-!
# Writing JSON text

* `Json.write` writes a value on one line, without blanks and in printable ASCII. Quotation marks,
  backslashes and all other characters are escaped.
-/

namespace Circuit.Json

def hexDigit (n : Nat) : Char :=
  if n < 10 then Char.ofNat (0x30 + n) else Char.ofNat (0x61 + (n - 10))

/-- A code unit of sixteen bits as an escape. -/
def escapeUnit (unit : Nat) : List Char :=
  ['\\', 'u', hexDigit (unit / 0x1000), hexDigit (unit / 0x100 % 0x10), hexDigit (unit / 0x10 % 0x10),
    hexDigit (unit % 0x10)]

/-- A code point inside a text. One beyond sixteen bits takes a pair of code units. -/
def escape (p : CodePoint) : List Char :=
  let n := p.toNat
  if p = .scalar '"' then ['\\', '"']
  else if p = .scalar '\\' then ['\\', '\\']
  else if 0x20 ≤ n ∧ n < 0x7f then [Char.ofNat n]
  else if n < 0x10000 then escapeUnit n
  else
    escapeUnit (0xd800 + (n - 0x10000) / 0x400) ++ escapeUnit (0xdc00 + (n - 0x10000) % 0x400)

def writeText (t : Text) : String :=
  "\"" ++ String.ofList (t.points.flatMap escape) ++ "\""

def writeReal : Binary64 → String
  | .infinite negative => if negative then "-Infinity" else "Infinity"
  | .undefined => "NaN"
  | x => x.text

mutual

def write : Json → String
  | .null => "null"
  | .bool b => if b then "true" else "false"
  | .int n => Decimal.ofInt n
  | .real x => writeReal x
  | .str s => writeText s
  | .arr items => "[" ++ String.intercalate "," (writeItems items) ++ "]"
  | .obj fields => "\x7b" ++ String.intercalate "," (writeFields fields) ++ "\x7d"

def writeItems : List Json → List String
  | [] => []
  | x :: rest => write x :: writeItems rest

def writeFields : List (Text × Json) → List String
  | [] => []
  | (key, x) :: rest => (writeText key ++ ":" ++ write x) :: writeFields rest

end

end Circuit.Json

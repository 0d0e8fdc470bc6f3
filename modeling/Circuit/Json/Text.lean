import Circuit.Decimal.Basic
import Circuit.Decimal.Shortest
import Circuit.Json.Basic
import Circuit.Text.Quoted

/-!
# The text of a JSON value

* `Json.literal` shows a value so that its type can be seen: texts are quoted.
* `Json.display` shows a text as it is and every other value as its literal.
* `Json.tuple` shows a row of values between parentheses.
-/

namespace Circuit.Json

mutual

def literal : Json → String
  | .null => "None"
  | .bool b => if b then "True" else "False"
  | .int n => Decimal.ofInt n
  | .real x => x.text
  | .str s => Text.quoted s
  | .arr items => "[" ++ String.intercalate ", " (literals items) ++ "]"
  | .obj fields => "\x7b" ++ String.intercalate ", " (fieldLiterals fields) ++ "\x7d"

def literals : List Json → List String
  | [] => []
  | x :: xs => literal x :: literals xs

def fieldLiterals : List (Text × Json) → List String
  | [] => []
  | (key, x) :: rest => (Text.quoted key ++ ": " ++ literal x) :: fieldLiterals rest

end

def display : Json → Text
  | .str s => s
  | value => value.literal

/-- A row of values between parentheses; a single value is followed by a comma. -/
def tuple : List Json → String
  | [x] => "(" ++ x.literal ++ ",)"
  | xs => "(" ++ String.intercalate ", " (xs.map literal) ++ ")"

end Circuit.Json

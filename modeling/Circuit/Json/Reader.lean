import Circuit.Decimal.Basic
import Circuit.Json.Basic

/-!
# Reading JSON text

A strict reader of one JSON value. Beside the standard it accepts `NaN`, `Infinity` and
`-Infinity`, halves of surrogate pairs in texts, and repeated keys, of which the last one counts. An
integer of more than `Decimal.digitLimit` digits is refused.

* `Json.read` reads a whole text.
-/

namespace Circuit.Json

open Circuit.Decimal

/-- What a reader finds at the head of a row of code points, and the code points after it. -/
abbrev Reading (α : Type) := Option (α × List CodePoint)

def isSpace : CodePoint → Bool
  | .scalar c => c = ' ' || c = '\t' || c = '\n' || c = '\r'
  | .surrogate _ => false

def skipSpace (ps : List CodePoint) : List CodePoint :=
  ps.dropWhile isSpace

def hexValue? (p : CodePoint) : Option Nat :=
  let n := p.toNat
  if 0x30 ≤ n ∧ n ≤ 0x39 then some (n - 0x30)
  else if 0x41 ≤ n ∧ n ≤ 0x46 then some (n - 0x41 + 10)
  else if 0x61 ≤ n ∧ n ≤ 0x66 then some (n - 0x61 + 10)
  else none

/-- The code unit that four hexadecimal digits name. -/
def hexUnit? (a b c d : CodePoint) : Option Nat :=
  match hexValue? a, hexValue? b, hexValue? c, hexValue? d with
  | some a, some b, some c, some d => some (((a * 16 + b) * 16 + c) * 16 + d)
  | _, _, _, _ => none

/-- The character that a letter after a backslash stands for. -/
def escaped? (c : Char) : Option Char :=
  match c with
  | '"' => some '"'
  | '\\' => some '\\'
  | '/' => some '/'
  | 'b' => some '\x08'
  | 'f' => some '\x0c'
  | 'n' => some '\n'
  | 'r' => some '\r'
  | 't' => some '\t'
  | _ => none

/-- A piece of a text: a code point as it is, or a code unit that an escape names. -/
inductive Piece
  | point (p : CodePoint)
  | unit (n : Nat)
deriving DecidableEq, Repr

def consPiece (piece : Piece) : Reading (List Piece) → Reading (List Piece)
  | some (pieces, rest) => some (piece :: pieces, rest)
  | none => none

/-- The pieces of a text up to its closing quotation mark, and what follows the mark. -/
def readPieces : List CodePoint → Reading (List Piece)
  | [] => none
  | .scalar '"' :: rest => some ([], rest)
  | .scalar '\\' :: .scalar 'u' :: a :: b :: c :: d :: rest =>
      match hexUnit? a b c d with
      | some unit => consPiece (.unit unit) (readPieces rest)
      | none => none
  | .scalar '\\' :: .scalar c :: rest =>
      match escaped? c with
      | some e => consPiece (.point (.scalar e)) (readPieces rest)
      | none => none
  | p :: rest =>
      if p = .scalar '\\' ∨ p.toNat < 0x20 then none
      else consPiece (.point p) (readPieces rest)

/-- The code points of a row of pieces. Two units that are the halves of a pair are joined. -/
def joinPieces : List Piece → List CodePoint
  | .unit high :: .unit low :: rest =>
      match CodePoint.pair? high low with
      | some p => p :: joinPieces rest
      | none => CodePoint.ofNat high :: joinPieces (.unit low :: rest)
  | .unit n :: rest => CodePoint.ofNat n :: joinPieces rest
  | .point p :: rest => p :: joinPieces rest
  | [] => []

/-- Reads a text after its opening quotation mark. -/
def readText (ps : List CodePoint) : Reading Text :=
  (readPieces ps).map fun (pieces, rest) => (⟨joinPieces pieces⟩, rest)

def isDigit : CodePoint → Bool
  | .scalar c => c.isDigit
  | .surrogate _ => false

def asciiValue (ds : List CodePoint) : Nat :=
  ds.foldl (fun n p => 10 * n + (p.toNat - 0x30)) 0

/-- The whole part of a number: a single zero, or digits that begin with another one. -/
def readWhole : List CodePoint → Option (List CodePoint × List CodePoint)
  | .scalar '0' :: rest => some ([.scalar '0'], rest)
  | ps =>
      let ds := ps.takeWhile isDigit
      if ds.isEmpty then none else some (ds, ps.dropWhile isDigit)

def readFraction (ps : List CodePoint) : List CodePoint × List CodePoint :=
  match ps with
  | .scalar '.' :: rest =>
      let ds := rest.takeWhile isDigit
      if ds.isEmpty then ([], ps) else (ds, rest.dropWhile isDigit)
  | _ => ([], ps)

/-- The sign of an exponent, and what follows it. -/
def readExponentSign : List CodePoint → Bool × List CodePoint
  | .scalar '-' :: rest => (true, rest)
  | .scalar '+' :: rest => (false, rest)
  | rest => (false, rest)

def readExponent (ps : List CodePoint) : Option Int × List CodePoint :=
  match ps with
  | p :: rest =>
      if p = .scalar 'e' ∨ p = .scalar 'E' then
        let (negative, rest) := readExponentSign rest
        let ds := rest.takeWhile isDigit
        if ds.isEmpty then (none, ps)
        else
          let n : Int := asciiValue ds
          (some (if negative then -n else n), rest.dropWhile isDigit)
      else (none, ps)
  | [] => (none, ps)

/-- Reads a number after its sign. -/
def readUnsigned (negative : Bool) (ps : List CodePoint) : Reading Json :=
  match readWhole ps with
  | none => none
  | some (whole, rest) =>
      let (fraction, rest) := readFraction rest
      let (exponent, rest) := readExponent rest
      if fraction.isEmpty && exponent.isNone then
        if digitLimit < whole.length then none
        else
          let n : Int := asciiValue whole
          some (.int (if negative then -n else n), rest)
      else
        let power : Int := exponent.getD 0 - fraction.length
        some (.real (Binary64.ofDecimal negative (asciiValue (whole ++ fraction)) power), rest)

/-- The words that stand for values, with their values. -/
def wordValues : List (Text × Json) :=
  [("null", .null), ("true", .bool true), ("false", .bool false), ("NaN", .real .undefined),
   ("Infinity", .real (.infinite false)), ("-Infinity", .real (.infinite true))]

def readWord (ps : List CodePoint) : Option (Json × List CodePoint) :=
  wordValues.findSome? fun (word, value) =>
    if word.points.isPrefixOf ps then some (value, ps.drop word.length) else none

def readAtom (ps : List CodePoint) : Reading Json :=
  match readWord ps with
  | some found => some found
  | none =>
      match ps with
      | .scalar '-' :: rest => readUnsigned true rest
      | _ => readUnsigned false ps

mutual

/-- Reads a value at the head of a text. The first argument bounds the steps: two for a bracket and at
most two for every other code point. -/
def readValue : Nat → List CodePoint → Reading Json
  | 0, _ => none
  | n + 1, ps =>
      match ps with
      | .scalar '"' :: rest => (readText rest).map fun (s, rest) => (.str s, rest)
      | .scalar '[' :: rest =>
          match skipSpace rest with
          | .scalar ']' :: rest => some (.arr [], rest)
          | rest => (readItems n rest).map fun (items, rest) => (.arr items, rest)
      | .scalar '\x7b' :: rest =>
          match skipSpace rest with
          | .scalar '\x7d' :: rest => some (.obj [], rest)
          | rest => (readFields n [] rest).map fun (fields, rest) => (.obj fields, rest)
      | _ => readAtom ps

def readItems : Nat → List CodePoint → Reading (List Json)
  | 0, _ => none
  | n + 1, ps =>
      match readValue n ps with
      | none => none
      | some (value, rest) =>
          match skipSpace rest with
          | .scalar ']' :: rest => some ([value], rest)
          | .scalar ',' :: rest =>
              (readItems n (skipSpace rest)).map fun (items, rest) => (value :: items, rest)
          | _ => none

/-- Reads the fields of an object up to its closing brace, after the fields already read. -/
def readFields : Nat → List (Text × Json) → List CodePoint → Reading (List (Text × Json))
  | 0, _, _ => none
  | n + 1, fields, ps =>
      match ps with
      | .scalar '"' :: rest =>
          match readText rest with
          | none => none
          | some (key, rest) =>
              match skipSpace rest with
              | .scalar ':' :: rest =>
                  match readValue n (skipSpace rest) with
                  | none => none
                  | some (value, rest) =>
                      let fields := setField key value fields
                      match skipSpace rest with
                      | .scalar '\x7d' :: rest => some (fields, rest)
                      | .scalar ',' :: rest => readFields n fields (skipSpace rest)
                      | _ => none
              | _ => none
      | _ => none

end

/-- Reads a text that holds one value and nothing else but blanks. -/
def read (text : Text) : Option Json :=
  match readValue (2 * text.length + 2) (skipSpace text.points) with
  | some (value, rest) => if (skipSpace rest).isEmpty then some value else none
  | none => none

end Circuit.Json

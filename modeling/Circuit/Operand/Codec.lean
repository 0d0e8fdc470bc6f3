import Circuit.Codec.Decode
import Circuit.Codec.Encode
import Circuit.Operand.Basic

/-!
# Operands as JSON

* `Operand.decode` reads an operand of a given noun, `Operand.encode` writes one.
* `Operand.encodeStatement` writes a statement, and fails for anything else.
* `Operand.report` is an operand for the report on a calculation.
-/

namespace Circuit

/-- The nouns with a JSON form. -/
inductive Noun
  | element
  | elements
  | var
  | comb
  | quad
  | tag
  | statement
  | parameter
  | program
  | witness
deriving DecidableEq, Repr

namespace Operand

/-- Reads an operand of a noun. A tag that is missing is plain data. -/
def decode (F : Field) (noun : Noun) (data : Json) : Except Fault Operand :=
  match noun with
  | .element => (F.read data).map .element
  | .elements => (decodeRow F.read data).map .elements
  | .var => (Variable.decode data).map .var
  | .comb => (LinComb.decode F data).map .comb
  | .quad => (QuadComb.decode F data).map ofQuad
  | .tag => (ErrorTag.decode data).map fun e => e.elim nothing .tag
  | .statement => (Statement.decode F data).map ofStatement
  | .parameter => (Parameter.decode data).map .parameter
  | .program => (Program.decode F data).map .program
  | .witness => (Witness.decode F data).map .witness

def encodePair (data : Json) : Except Fault Json := do
  let (name, number) ← data.pair
  let n ← number.integer
  return .arr [.str name.display, .str (Decimal.ofInt n)]

/-- Writes an operand as the terms of a combination. Plain data is looped over like any row of
terms; a canonical form has no term under the number zero. -/
def encodeComb : Operand → Except Fault Json
  | .comb a => .ok a.encode
  | .canonical _ => .error (.missingField "0")
  | .json data => do
      let rows ← (← data.items).mapM encodePair
      return .arr rows
  | _ => .error .notIterable

def encodeQuad : Operand → Except Fault Json
  | .quad left right => do
      let left ← encodeComb left
      let right ← encodeComb right
      return .obj [("left", left), ("right", right)]
  | _ => .error .noOperation

def encodeGroup (group : Json × List Operand) : Except Fault Json :=
  (group.2.mapM encodeComb).map fun combs => .arr [group.1, .arr combs]

mutual

def encodeStatement : Operand → Except Fault Json
  | .constraint q l e => do
      let left ← encodeQuad q
      let right ← encodeComb l
      return .obj [("type", .str "constraint"), ("quad", left), ("lin", right),
        ("error", ErrorTag.encode e)]
  | .directive inputs outputs solver => do
      let inputs ← inputs.mapM encodeQuad
      let outputs ← texts outputs
      return .obj [("type", .str "directive"), ("inputs", .arr inputs),
        ("outputs", .arr (outputs.map .str)), ("solver", solver.encode)]
  | .log format groups => do
      let groups ← groups.mapM encodeGroup
      return .obj [("type", .str "log"), ("format", format), ("expressions", .arr groups)]
  | .block body => do
      let body ← encodeStatements body
      return .obj [("type", .str "block"), ("statements", .arr body)]
  | x => do
      let shown ← x.literal
      throw (.notStatement shown)

def encodeStatements : List Operand → Except Fault (List Json)
  | [] => .ok []
  | x :: rest => do
      let first ← encodeStatement x
      let others ← encodeStatements rest
      return first :: others

end

def encode : Operand → Except Fault Json
  | .json data => .ok data
  | .element x => .ok x.encode
  | .elements xs => .ok (.arr (xs.map Element.encode))
  | .var v => .ok v.encode
  | .comb a => .ok a.encode
  | .canonical c => .ok c.toLinComb.encode
  | .quad left right => encodeQuad (.quad left right)
  | .tag e => .ok (ErrorTag.encode (some e))
  | .parameter p => .ok p.encode
  | .program p => .ok p.encode
  | .witness w => .ok w.encode
  | x => encodeStatement x

/-- The report on an operand under a name, with its text. -/
def reportAs (name : String) (x : Operand) : Except Fault Json := do
  let data ← x.encode
  let text ← x.text
  return .obj [(name, data), ("text", .str text)]

/-- The report on an operand: its form under the name of its kind, with its text where the form does
not show it. -/
def report (x : Operand) : Except Fault Json :=
  match x with
  | .var v => .ok (.obj [("variable", v.encode)])
  | .comb _ => x.reportAs "lincomb"
  | .canonical c => .ok (.obj [("canonical", c.toLinComb.encode)])
  | .quad _ _ => x.reportAs "quad"
  | .constraint _ _ _ => x.reportAs "statement"
  | .directive _ _ _ => x.reportAs "statement"
  | .log _ _ => x.reportAs "statement"
  | .block _ => x.reportAs "statement"
  | _ => x.encode.map fun data => .obj [("value", data)]

end Operand

end Circuit

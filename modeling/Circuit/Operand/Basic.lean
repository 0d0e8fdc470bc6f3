import Circuit.Canonical
import Circuit.Program.Basic
import Circuit.Witness.File

/-!
# Operands

What a step of a calculation works on: any of the nouns of a circuit, or plain JSON data. Products and
statements made of operands need not be well formed; a part that is of no use shows when it is
written or evaluated.

* `Operand.text` and `Operand.literal` are the texts of operands.
* `Operand.linear` and `Operand.product` read an operand as a combination.
* `Operand.ofStatement` takes a statement as an operand.
-/

namespace Circuit

/-- A value in a calculation. -/
inductive Operand
  | json (data : Json)
  | element (x : Element)
  | elements (xs : List Element)
  | var (v : Variable)
  | comb (a : LinComb)
  | canonical (c : Canonical)
  | quad (left right : Operand)
  | constraint (quad lin : Operand) (tag : Option ErrorTag)
  | directive (inputs outputs : List Operand) (solver : Solver)
  | log (format : Json) (groups : List (Json × List Operand))
  | block (body : List Operand)
  | tag (e : ErrorTag)
  | parameter (p : Parameter)
  | program (p : Program)
  | witness (w : Witness)
deriving Repr

namespace Operand

instance : Inhabited Operand := ⟨.json .null⟩

/-- What a step leaves that has no result. -/
def nothing : Operand := .json .null

/-- A product of combinations as an operand. -/
def ofQuad (q : QuadComb) : Operand := .quad (.comb q.left) (.comb q.right)

mutual

def ofStatement : Statement → Operand
  | .constraint c => .constraint (ofQuad c.quad) (.comb c.lin) c.tag
  | .directive d => .directive (d.inputs.map ofQuad) (d.outputs.map .var) d.solver
  | .log l => .log l.format (l.groups.map fun g => (g.1, g.2.map .comb))
  | .block body => .block (ofStatements body)

def ofStatements : List Statement → List Operand
  | [] => []
  | s :: rest => ofStatement s :: ofStatements rest

end

def elementsText (xs : List Element) : String :=
  "[" ++ String.intercalate ", " (xs.map Element.text) ++ "]"

def tagText : Option ErrorTag → Except Fault (Option Text)
  | none => .ok none
  | some e => e.text.map some

mutual

def text : Operand → Except Fault Text
  | .json data => .ok data.display
  | .element x => .ok x.text
  | .elements xs => .ok (elementsText xs)
  | .var v => .ok v.text
  | .comb a => .ok a.text
  | .canonical c => .ok c.literal
  | .quad left right => do
      let left ← text left
      let right ← text right
      return QuadComb.join left right
  | .constraint q l e => do
      let shownTag ← tagText e
      let left ← text q
      let right ← text l
      return Constraint.join left right shownTag
  | .directive inputs outputs solver => do
      let outputs ← texts outputs
      let inputs ← texts inputs
      let solver ← solver.text
      return Directive.join inputs outputs solver
  | .log format groups => do
      let groups ← groupTexts groups
      return Log.join format groups
  | .block body => do
      let lines ← texts body
      return Statement.joinBlock lines
  | .tag e => e.text
  | .parameter p => .ok p.text
  | .program p => p.text
  | .witness w => .ok w.text

def texts : List Operand → Except Fault (List Text)
  | [] => .ok []
  | x :: rest => do
      let first ← text x
      let others ← texts rest
      return first :: others

def groupTexts : List (Json × List Operand) → Except Fault (List (List Text))
  | [] => .ok []
  | (_, group) :: rest => do
      let first ← texts group
      let others ← groupTexts rest
      return first :: others

end

def literal : Operand → Except Fault Text
  | .json data => .ok data.literal
  | .var v => .ok v.literal
  | .comb a => .ok a.literal
  | .quad left right => (text (.quad left right)).map fun t => "QuadComb(" ++ t ++ ")"
  | .constraint q l e =>
      (text (.constraint q l e)).map fun t => "Constraint(" ++ t ++ ")"
  | .tag e => e.literal
  | .parameter p => .ok p.literal
  | x => x.text

/-- An operand as a linear combination: a combination itself, or a variable. -/
def linear (F : Field) : Operand → Except Fault LinComb
  | .comb a => .ok a
  | .var v => .ok (LinComb.ofVariable v F)
  | x => do
      let shown ← x.literal
      throw (.notLinear shown)

/-- An operand as a product: a product itself, or one times a linear combination. -/
def product (F : Field) : Operand → Except Fault Operand
  | .quad left right => .ok (.quad left right)
  | x => (x.linear F).map fun a => ofQuad (.ofLinComb a F)

def evaluate (w : Witness) (F : Field) : Operand → Except Fault Element
  | .comb a => a.evaluate w F
  | .quad left right => do
      let x ← evaluate w F left
      let y ← evaluate w F right
      return x.mul y.toInt
  | _ => .error .noOperation

def isSatisfied (w : Witness) (F : Field) : Operand → Except Fault Bool
  | .constraint q l _ => do
      let x ← q.evaluate w F
      let y ← l.evaluate w F
      return x.value = y.value
  | _ => .error .noOperation

end Operand

end Circuit

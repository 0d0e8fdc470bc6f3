import Circuit.Program.Basic
import Circuit.Canonical

/-!
# Writing circuits as JSON

Variables and elements are texts, combinations are arrays of pairs, and everything else is an object.

* `Program.encode`, `Statement.encode` and `Witness.encode` are the forms that are stored.
-/

namespace Circuit

def Variable.encode (v : Variable) : Json := .str v.text

def Element.encode (x : Element) : Json := .str x.text

/-- A term is the pair of its variable and its coefficient. -/
def Term.encode (t : Term) : Json := .arr [t.var.encode, t.coeff.encode]

def LinComb.encode (a : LinComb) : Json := .arr (a.terms.map Term.encode)

def QuadComb.encode (q : QuadComb) : Json :=
  .obj [("left", q.left.encode), ("right", q.right.encode)]

/-- A tag is an object; no tag is `null`. -/
def ErrorTag.encode : Option ErrorTag → Json
  | none => .null
  | some tag => .obj [("kind", tag.kind), ("message", tag.message)]

def Constraint.encode (c : Constraint) : Json :=
  .obj [("type", .str "constraint"), ("quad", c.quad.encode), ("lin", c.lin.encode),
    ("error", ErrorTag.encode c.tag)]

def Solver.encode (s : Solver) : Json := .obj [("name", s.name), ("params", .arr s.parameters)]

def Directive.encode (d : Directive) : Json :=
  .obj [("type", .str "directive"), ("inputs", .arr (d.inputs.map QuadComb.encode)),
    ("outputs", .arr (d.outputs.map Variable.encode)), ("solver", d.solver.encode)]

def Log.encode (l : Log) : Json :=
  .obj [("type", .str "log"), ("format", l.format),
    ("expressions", .arr (l.groups.map fun g => .arr [g.1, .arr (g.2.map LinComb.encode)]))]

namespace Statement

mutual

def encode : Statement → Json
  | .constraint c => c.encode
  | .directive d => d.encode
  | .log l => l.encode
  | .block body => .obj [("type", .str "block"), ("statements", .arr (encodeAll body))]

def encodeAll : List Statement → List Json
  | [] => []
  | s :: rest => encode s :: encodeAll rest

end

end Statement

def Parameter.encode (p : Parameter) : Json :=
  .obj [("id", p.id.encode), ("private", .bool p.isPrivate)]

/-- The object of a program with the given parameters, count of returned values and written
statements. -/
def Interface.encodeWith (parameters : List Parameter) (returnCount : Json)
    (statements : List Json) : Json :=
  .obj [("arguments", .arr (parameters.map Parameter.encode)), ("return_count", returnCount),
    ("statements", .arr statements)]

def Program.encode (p : Program) : Json :=
  Interface.encodeWith p.interface.parameters p.interface.returnCount.toJson
    (Statement.encodeAll p.statements)

/-- A witness is an object of its variables, in their order. -/
def Witness.encode (w : Witness) : Json :=
  .obj (w.entries.map fun e => (e.1.text, .str (Decimal.ofInt e.2)))

end Circuit

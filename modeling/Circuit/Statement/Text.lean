import Circuit.Statement.Basic

/-!
# The text of statements

Each statement on a line of its own; a block between lines of braces, its statements not indented.

* `Statement.text` fails where a solver or a tag has no text.
-/

namespace Circuit

namespace Constraint

def join (quad lin : Text) : Option Text → Text
  | none => quad ++ " == " ++ lin
  | some tag => quad ++ " == " ++ lin ++ " // " ++ tag

/-- The text of a constraint without its tag. -/
def equation (c : Constraint) : Text := join c.quad.text c.lin.text none

def text (c : Constraint) : Except Fault Text :=
  match c.tag with
  | none => .ok c.equation
  | some tag => tag.text.map fun t => join c.quad.text c.lin.text (some t)

def literal (c : Constraint) : Except Fault Text :=
  c.text.map fun t => "Constraint(" ++ t ++ ")"

end Constraint

namespace Directive

def join (inputs outputs : List Text) (solver : Text) : Text :=
  "# " ++ Text.join ", " outputs ++ " = " ++ solver ++ "(" ++ Text.join ", " inputs ++ ")"

def text (d : Directive) : Except Fault Text :=
  d.solver.text.map fun s =>
    join (d.inputs.map QuadComb.text) (d.outputs.map fun v => v.text) s

end Directive

namespace Log

def join (format : Json) (groups : List (List Text)) : Text :=
  "log(\"" ++ format.display ++ "\", " ++
    Text.join ", " (groups.map fun g => "[" ++ Text.join ", " g ++ "]") ++ ")"

def text (l : Log) : Text := join l.format (l.groups.map fun g => g.2.map fun a => a.text)

end Log

namespace Statement

def joinBlock (body : List Text) : Text :=
  "\x7b\n" ++ Text.lines body ++ "\x7d"

mutual

def text : Statement → Except Fault Text
  | .constraint c => c.text
  | .directive d => d.text
  | .log l => .ok l.text
  | .block body =>
      match texts body with
      | .error fault => .error fault
      | .ok lines => .ok (joinBlock lines)

def texts : List Statement → Except Fault (List Text)
  | [] => .ok []
  | s :: rest =>
      match text s with
      | .error fault => .error fault
      | .ok line =>
          match texts rest with
          | .error fault => .error fault
          | .ok lines => .ok (line :: lines)

end

end Statement

end Circuit

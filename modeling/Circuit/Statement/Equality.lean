import Circuit.Statement.Basic

/-!
# Equality of statements

Statements are compared by what they demand: variables and the integers of coefficients, never the
fields of coefficients nor the tags of constraints. Names and texts are compared as JSON values.

* `Statement.same` compares two statements, `Statement.sameAll` two rows.
* `Statement.isSetMember` says whether a statement can be a member of a set.
-/

namespace Circuit

def Constraint.same (c d : Constraint) : Bool := c.quad.same d.quad && c.lin.same d.lin

def QuadComb.sameAll : List QuadComb → List QuadComb → Bool
  | [], [] => true
  | p :: ps, q :: qs => p.same q && sameAll ps qs
  | _, _ => false

def Directive.same (d e : Directive) : Bool :=
  QuadComb.sameAll d.inputs e.inputs && d.outputs = e.outputs && d.solver.same e.solver

def Log.sameGroups : List (Json × List LinComb) → List (Json × List LinComb) → Bool
  | [], [] => true
  | g :: gs, h :: hs =>
      g.1.same h.1 && g.2.map LinComb.key = h.2.map LinComb.key && sameGroups gs hs
  | _, _ => false

def Log.same (l m : Log) : Bool := l.format.same m.format && sameGroups l.groups m.groups

namespace Statement

mutual

def same : Statement → Statement → Bool
  | .constraint c, .constraint d => c.same d
  | .directive d, .directive e => d.same e
  | .log l, .log m => l.same m
  | .block xs, .block ys => sameAll xs ys
  | _, _ => false

def sameAll : List Statement → List Statement → Bool
  | [], [] => true
  | x :: xs, y :: ys => same x y && sameAll xs ys
  | _, _ => false

end

mutual

/-- Whether a statement can be a member of a set: all its names and texts must be able to. -/
def isSetMember : Statement → Bool
  | .constraint _ => true
  | .directive d => d.solver.isSetMember
  | .log l => l.format.isSetMember && l.groups.all fun g => g.1.isSetMember
  | .block body => areSetMembers body

def areSetMembers : List Statement → Bool
  | [] => true
  | s :: rest => isSetMember s && areSetMembers rest

end

end Statement

end Circuit

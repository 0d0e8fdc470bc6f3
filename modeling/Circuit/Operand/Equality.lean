import Circuit.Operand.Basic

/-!
# Equality of operands

Operands of different kinds are different, except that an element of a field is compared with numbers,
and cannot be compared with anything else. Rows are compared member by member up to the first
difference, so that a later member may be one that cannot be compared.

* `Operand.equals` compares two operands.
* `Operand.distinct` counts the members of a set of operands.
-/

namespace Circuit.Operand

/-- The integer that an operand is, when it can be compared with an element. -/
def integer? : Operand → Option Int
  | .element x => some x.toInt
  | .json (.int n) => some n
  | .json (.bool b) => some (if b then 1 else 0)
  | _ => none

def isElement : Operand → Bool
  | .element _ => true
  | _ => false

/-- Equality of two operands of which one is an element, and of operands of different kinds. Integers
are not reduced before they are compared with an element. -/
def equalsOther (a b : Operand) : Except Fault Bool :=
  if a.isElement || b.isElement then
    match a.integer?, b.integer? with
    | some x, some y => .ok (x = y)
    | _, _ => .error .unsupported
  else .ok false

/-- The second of two comparisons, which counts only if the first one finds no difference. -/
def andThen (first second : Except Fault Bool) : Except Fault Bool :=
  match first with
  | .ok true => second
  | found => found

mutual

def equals : Operand → Operand → Except Fault Bool
  | .json x, .json y => .ok (x.same y)
  | .elements xs, .elements ys => .ok (xs.map Element.value = ys.map Element.value)
  | .var v, .var u => .ok (v = u)
  | .comb a, .comb b => .ok (a.same b)
  | .canonical c, .canonical d => .ok (c.same d)
  | .quad a b, .quad c d => andThen (equals a c) (equals b d)
  | .constraint a b _, .constraint c d _ => andThen (equals a c) (equals b d)
  | .directive a b s, .directive c d t =>
      andThen (equalsAll a c) (andThen (equalsAll b d) (.ok (s.same t)))
  | .log f xs, .log g ys => andThen (.ok (f.same g)) (equalsGroups xs ys)
  | .block xs, .block ys => equalsAll xs ys
  | .tag e, .tag f => .ok (e.same f)
  | .parameter p, .parameter q => .ok (p = q)
  | .program p, .program q => .ok (p.same q)
  | .witness w, .witness u => .ok (w = u)
  | a, b => equalsOther a b

def equalsAll : List Operand → List Operand → Except Fault Bool
  | [], [] => .ok true
  | x :: xs, y :: ys => andThen (equals x y) (equalsAll xs ys)
  | _, _ => .ok false

def equalsGroups : List (Json × List Operand) → List (Json × List Operand) → Except Fault Bool
  | [], [] => .ok true
  | (n, xs) :: rest, (m, ys) :: others =>
      andThen (.ok (n.same m)) (andThen (equalsAll xs ys) (equalsGroups rest others))
  | _, _ => .ok false

end

/-- Whether two operands can be compared and are equal. -/
def same (a b : Operand) : Bool :=
  match equals a b with
  | .ok equal => equal
  | .error _ => false

mutual

def isSetMember : Operand → Bool
  | .json data => data.isSetMember
  | .var _ => true
  | .comb _ => true
  | .canonical _ => true
  | .quad a b => isSetMember a && isSetMember b
  | .constraint a b _ => isSetMember a && isSetMember b
  | .directive a b s => areSetMembers a && areSetMembers b && s.isSetMember
  | .log f groups => f.isSetMember && areSetGroups groups
  | .block xs => areSetMembers xs
  | .tag e => e.isSetMember
  | .parameter _ => true
  | _ => false

def areSetMembers : List Operand → Bool
  | [] => true
  | x :: rest => isSetMember x && areSetMembers rest

def areSetGroups : List (Json × List Operand) → Bool
  | [] => true
  | (name, xs) :: rest => name.isSetMember && areSetMembers xs && areSetGroups rest

end

/-- Adds an operand to a row unless an equal one is there. -/
def insertDistinct (row : List Operand) (x : Operand) : List Operand :=
  if row.any fun y => y.same x then row else x :: row

def distinct (xs : List Operand) : Except Fault Nat :=
  if areSetMembers xs then .ok (xs.foldl insertDistinct []).length else .error .notSetMember

end Circuit.Operand

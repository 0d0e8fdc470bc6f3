import Circuit.Program.Basic

/-!
# Reading circuits from JSON

The readers accept more than the writers produce: numbers for decimal texts, any value as a
condition, and texts and objects wherever a row is looped over. Fields are read in a fixed order and the
first fault counts.

* `Statement.decode`, `Program.decode` and `Witness.decode` read what is stored or sent.
-/

namespace Circuit

namespace Json

/-- The members of a row. -/
def items (data : Json) : Except Fault (List Json) :=
  match data.items? with
  | some items => .ok items
  | none => .error .notIterable

def pair (data : Json) : Except Fault (Json × Json) :=
  match data.items? with
  | some [a, b] => .ok (a, b)
  | some _ => .error .notPair
  | none => .error .notIterable

def expectObject (what : String) : Json → Except Fault (List (Text × Json))
  | .obj fields => .ok fields
  | data => .error (.wrongType what "dict" data.literal)

/-- The value of a field that must be there. -/
def require (fields : List (Text × Json)) (key : String) : Except Fault Json :=
  match field? fields key with
  | some value => .ok value
  | none => .error (.missingField key)

end Json

def decodeEach {α : Type} (decode : Json → Except Fault α) : List Json → Except Fault (List α)
  | [] => .ok []
  | x :: rest =>
      match decode x with
      | .error fault => .error fault
      | .ok a => (decodeEach decode rest).map (a :: ·)

def decodeRow {α : Type} (decode : Json → Except Fault α) (data : Json) :
    Except Fault (List α) := do
  decodeEach decode (← data.items)

/-- Reads the row in an optional field; without the field it is empty. -/
def decodeOptional {α : Type} (decode : Json → Except Fault α) (fields : List (Text × Json))
    (key : String) : Except Fault (List α) :=
  match Json.field? fields key with
  | none => .ok []
  | some data => decodeRow decode data

namespace Variable

def decode : Json → Except Fault Variable
  | .str text => parse text
  | data => .error (.wrongType "변수" "str" data.literal)

end Variable

/-- Reads a pair of a variable and a coefficient, the variable first. -/
def Term.decode (F : Field) (data : Json) : Except Fault Term := do
  let (name, number) ← data.pair
  let v ← Variable.decode name
  let x ← F.read number
  return ⟨v, x⟩

def LinComb.decode (F : Field) (data : Json) : Except Fault LinComb :=
  (decodeRow (Term.decode F) data).map LinComb.mk

def QuadComb.decode (F : Field) (data : Json) : Except Fault QuadComb := do
  let fields ← data.expectObject "이차 결합"
  let left ← LinComb.decode F (← Json.require fields "left")
  let right ← LinComb.decode F (← Json.require fields "right")
  return ⟨left, right⟩

/-- Reads a tag; `null` is no tag. -/
def ErrorTag.decode : Json → Except Fault (Option ErrorTag)
  | .null => .ok none
  | data => do
      let fields ← data.expectObject "오류 태그"
      let kind ← Json.require fields "kind"
      return some ⟨kind, (Json.field? fields "message").getD .null⟩

def Constraint.decode (F : Field) (fields : List (Text × Json)) : Except Fault Constraint := do
  let quad ← QuadComb.decode F (← Json.require fields "quad")
  let lin ← LinComb.decode F (← Json.require fields "lin")
  let tag ← ErrorTag.decode ((Json.field? fields "error").getD .null)
  return ⟨quad, lin, tag⟩

def Directive.decode (F : Field) (fields : List (Text × Json)) : Except Fault Directive := do
  let solver ← (← Json.require fields "solver").expectObject "솔버"
  let inputs ← decodeRow (QuadComb.decode F) (← Json.require fields "inputs")
  let outputs ← decodeRow Variable.decode (← Json.require fields "outputs")
  let name ← Json.require solver "name"
  let parameters ← decodeOptional .ok solver "params"
  Directive.make inputs outputs ⟨name, parameters⟩

def Log.decodeGroup (F : Field) (data : Json) : Except Fault (Json × List LinComb) := do
  let (type, combs) ← data.pair
  return (type, ← decodeRow (LinComb.decode F) combs)

def Log.decode (F : Field) (fields : List (Text × Json)) : Except Fault Log := do
  let format ← Json.require fields "format"
  let groups ← decodeOptional (Log.decodeGroup F) fields "expressions"
  return ⟨format, groups⟩

namespace Statement

def typeName? (fields : List (Text × Json)) : Option String :=
  match Json.field? fields "type" with
  | some (.str name) => name.toString?
  | _ => none

/-- The fault of a value that is no object where a statement is expected. -/
def notObject (data : Json) : Fault := .wrongType "문장" "dict" data.literal

mutual

def decode (F : Field) : Json → Except Fault Statement
  | .obj fields =>
      match typeName? fields with
      | some "constraint" => (Constraint.decode F fields).map .constraint
      | some "directive" => (Directive.decode F fields).map .directive
      | some "log" => (Log.decode F fields).map .log
      | some "block" => (decodeBody F fields).map .block
      | _ => .error (.unknownType ((Json.field? fields "type").getD .null).literal)
  | data => .error (notObject data)

def decodeBody (F : Field) : List (Text × Json) → Except Fault (List Statement)
  | [] => .error (.missingField "statements")
  | (key, data) :: rest => if key = "statements" then decodeAll F data else decodeBody F rest

/-- Reads a row of statements. The members of a row that is no array are texts. -/
def decodeAll (F : Field) : Json → Except Fault (List Statement)
  | .arr items => decodeItems F items
  | data =>
      match data.items? with
      | none => .error .notIterable
      | some [] => .ok []
      | some (x :: _) => .error (notObject x)

def decodeItems (F : Field) : List Json → Except Fault (List Statement)
  | [] => .ok []
  | x :: rest =>
      match decode F x with
      | .error fault => .error fault
      | .ok s => (decodeItems F rest).map (s :: ·)

end

end Statement

def Parameter.decode (data : Json) : Except Fault Parameter := do
  let fields ← data.expectObject "인자"
  let id ← Variable.decode (← Json.require fields "id")
  let isPrivate ← Json.require fields "private"
  return ⟨id, isPrivate.truth⟩

/-- Reads a count of returned values: a natural number or a truth value. -/
def ReturnCount.decode : Json → Except Fault ReturnCount
  | .bool b => .ok (.flag b)
  | .int (.ofNat n) => .ok (.number n)
  | data => .error (.badReturnCount data.literal)

def Program.decode (F : Field) (data : Json) : Except Fault Program := do
  let fields ← data.expectObject "프로그램"
  let count ← ReturnCount.decode ((Json.field? fields "return_count").getD (.int 0))
  let parameters ← decodeOptional Parameter.decode fields "arguments"
  let statements ←
    match Json.field? fields "statements" with
    | none => .ok []
    | some rows => Statement.decodeAll F rows
  return ⟨⟨parameters, count⟩, statements⟩

/-- Reads the value of one variable of a witness, the variable first. -/
def Witness.decodeEntry (F : Field) (entry : Text × Json) : Except Fault (Variable × Int) := do
  let v ← Variable.parse entry.1
  let x ← F.read entry.2
  return (v, x.toInt)

/-- Reads a witness. Of several spellings of one variable the last one counts. -/
def Witness.decode (F : Field) (data : Json) : Except Fault Witness := do
  let fields ← data.expectObject "위트니스"
  return Witness.ofList (← fields.mapM (Witness.decodeEntry F))

end Circuit

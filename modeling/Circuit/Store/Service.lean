import Circuit.Codec.Decode
import Circuit.Codec.Encode
import Circuit.Json.Reader
import Circuit.R1cs.Export
import Circuit.Store.Basic
import Circuit.Text.Encoding

/-!
# The program service

Named programs behind requests. A program is stored in its JSON form once it is readable and its
public variables lie in the public section; blocks have to be taken out of a stored program before it is
exported or checked.

* `Store.handle` answers one request, `Store.run` a row of them.
* `Refusal.message` is the wording of every refusal.
* `Database.reopen` keeps the rows of a database in a file and forgets those in memory.
-/

namespace Circuit

inductive Body
  | absent
  /-- A text, and whether it is declared to be JSON. -/
  | text (content : String) (declared : Bool)
  /-- A value that the client writes as JSON by itself. -/
  | json (value : Json)
deriving Repr

def Body.value? : Body → Option Json
  | .absent => none
  | .json value => some value
  | .text content declared =>
      if declared then (Encoding.read? content).bind Json.read else none

def Body.fields? (body : Body) : Option (List (Text × Json)) :=
  match body.value? with
  | some (.obj fields) => some fields
  | _ => none

/-- A request. All but the first concern the program of a name. -/
inductive Request
  | list
  | save (name : String) (body : Body)
  | summary (name : String)
  | delete (name : String)
  | clean (name : String)
  | download (name : String)
  | check (name : String) (body : Body)
deriving Repr

inductive Refusal
  /-- The body holds no JSON object. -/
  | noObject
  /-- The body is no program. -/
  | badProgram (fault : Fault)
  /-- The program contradicts itself. -/
  | badWires (fault : Fault)
  /-- The body is no witness. -/
  | badWitness (fault : Fault)
  /-- Public variables without a value, by their texts. -/
  | unassigned (names : List String)
  /-- A variable of a constraint without a value. -/
  | missingValue (v : Variable)
  /-- No program has the name. -/
  | unknown (name : String)
  /-- The program has blocks. -/
  | blocks (name : String)
deriving Repr

inductive Response
  | json (status : Nat) (body : Json)
  | empty (status : Nat)
  | download (file : String) (bytes : Bytes)
  /-- The request could not be carried out. -/
  | broken
deriving Repr

/-- A fault as part of a refusal: its wording, the quoted key of a missing field, or a star. -/
def Fault.detail : Fault → Text
  | .missingField key => Text.quoted key
  | fault => fault.message?.getD "*"

namespace Refusal

def message : Refusal → Text
  | .noObject => "JSON 객체가 필요합니다"
  | .badProgram fault => "프로그램 형식이 잘못되었습니다: " ++ fault.detail
  | .badWires fault => "공개 변수 범위가 잘못되었습니다: " ++ fault.detail
  | .badWitness fault => "위트니스 형식이 잘못되었습니다: " ++ fault.detail
  | .unassigned names => "공개 변수 값이 없습니다: " ++ String.intercalate ", " names
  | .missingValue v => "제약에 쓰인 변수 값이 없습니다: " ++ v.text
  | .unknown name => "프로그램이 없습니다: " ++ name
  | .blocks name =>
      "프로그램 " ++ name ++ "에 Block 이 남아 있습니다. 먼저 /ir/programs/" ++ name ++
        "/clean 을 호출하세요"

def status : Refusal → Nat
  | .unknown _ => 404
  | .blocks _ => 409
  | _ => 400

def response (r : Refusal) : Response := .json r.status (.obj [("error", .str r.message)])

end Refusal

namespace Response

def status : Response → Nat
  | .json status _ => status
  | .empty status => status
  | .download _ _ => 200
  | .broken => 500

def mediaType : String := "application/octet-stream"

/-- Whether a character may stand in a file name without quotation marks. -/
def isTokenChar (c : Char) : Bool :=
  c.isAlphanum || "!#$%&'*+-.^_|~".toList.contains c || c = '\x60'

/-- Whether a file name fits on the line that names the file of a download. -/
def fitsLine (file : String) : Bool :=
  file.toList.all fun c => c ≠ '\n' && c ≠ '\r'

/-- A value on that line, between quotation marks unless it is a token. -/
def lineValue (value : String) : String :=
  if value.toList.all isTokenChar then value
  else
    let escaped := value.toList.flatMap fun c => if c = '"' ∨ c = '\\' then ['\\', c] else [c]
    "\"" ++ String.ofList escaped ++ "\""

/-- Whether a character stands for itself where others are written as the numbers of their bytes. -/
def isPlainChar (c : Char) : Bool :=
  c.isAlphanum || "!#$&+-.^_|~".toList.contains c || c = '\x60'

/-- A byte as a percent sign and its two digits in base sixteen. -/
def percentByte (b : UInt8) : List Char :=
  ['%', (Nat.digitChar (b.toNat / 16)).toUpper, (Nat.digitChar (b.toNat % 16)).toUpper]

/-- A text as plain characters and bytes. -/
def percentEncoded (value : String) : String :=
  String.ofList (value.toList.flatMap fun c =>
    if isPlainChar c then [c] else (String.utf8EncodeChar c).flatMap percentByte)

/-- How a download names its file. A name with characters beyond ASCII is given twice: first by the ASCII
characters that are left when every character is decomposed, as Unicode does for compatibility, and then in
full. -/
def disposition (decompose : Char → List Char) (file : String) : String :=
  if file.toList.all fun c => c.toNat < 128 then "attachment; filename=" ++ lineValue file
  else
    let simple := (file.toList.flatMap decompose).filter fun c => c.toNat < 128
    "attachment; filename=" ++ lineValue (String.ofList simple) ++ "; filename*=UTF-8''" ++
      percentEncoded file

/-- The response that says an outcome, or that there is none. -/
def ofOutcome (respond : Json → Response) : Except Fault Json → Response
  | .ok body => respond body
  | .error _ => .broken

end Response

namespace Program

def summary (p : Program) (name : String) : Except Fault Json :=
  p.text.map fun text =>
    .obj [("name", .str name), ("arguments", .int p.interface.parameters.length),
      ("return_count", p.interface.returnCount.toJson),
      ("public_count", .int p.interface.publicCount),
      ("private_input_count", .int p.interface.privateCount),
      ("constraint_count", .int p.constraintCount), ("text", .str text)]

/-- Finds the wires of the program without its blocks. -/
def checkWires (p : Program) : Except Fault R1cs.Sizing :=
  R1cs.Sizing.compute Field.scalars p.interface p.clean.constraints

/-- The public variables without a value: the public parameters and the returned values. -/
def unassigned (p : Program) (w : Witness) : List Variable :=
  (Interface.distinctVariables (p.interface.publicParameters ++ p.interface.returns)).filter
    fun v => !w.contains v

def reportFailed (failed : Nat × Constraint) : Except Fault Json :=
  match failed.2.text with
  | .error fault => .error fault
  | .ok text =>
      match failed.2.tag with
      | none => .ok (report text .null)
      | some tag => tag.text.map fun t => report text (.str t)
where
  report (text : Text) (tag : Json) : Json :=
    .obj [("index", .int failed.1), ("constraint", .str text), ("error", tag)]

/-- The report on a witness: the values that a verifier is shown, and the constraints that fail. -/
def report (p : Program) (w : Witness) (failed : List (Nat × Constraint)) : Except Fault Json :=
  match failed.mapM reportFailed with
  | .error fault => .error fault
  | .ok rows =>
      (p.interface.publicValues w).map fun values =>
        .obj [("public_inputs", .arr (values.map fun x => .str (Decimal.ofInt x))),
          ("unsatisfied", .arr rows)]

def check (p : Program) (w : Witness) : Response :=
  match p.unassigned w with
  | v :: vs =>
      (Refusal.unassigned
        (((v :: vs).map Variable.text).mergeSort fun a b => decide (a ≤ b))).response
  | [] =>
      match p.unsatisfied w Field.scalars with
      | .error (.missingValue v) => (Refusal.missingValue v).response
      | .error _ => .broken
      | .ok failed => .ofOutcome (.json 200) (p.report w failed)

end Program

namespace Store

/-- The program of a name; nothing when there is none. -/
def load (s : Store) (name : String) : Option (Except Fault Program) :=
  (s.get? name).map (Program.decode Field.scalars)

/-- Answers a request for the program of a name through `respond`. -/
def withProgram (s : Store) (name : String) (respond : Program → Store × Response) :
    Store × Response :=
  match s.load name with
  | none => (s, (Refusal.unknown name).response)
  | some (.error _) => (s, .broken)
  | some (.ok p) => respond p

/-- Stores a program and answers with its summary. -/
def keep (s : Store) (name : String) (p : Program) (status : Nat) : Store × Response :=
  (s.put name p.encode, .ofOutcome (.json status) (p.summary name))

def save (s : Store) (name : String) (body : Body) : Store × Response :=
  match body.fields? with
  | none => (s, Refusal.noObject.response)
  | some fields =>
      match Program.decode Field.scalars (.obj fields) with
      | .error .infiniteNumber => (s, .broken)
      | .error fault => (s, (Refusal.badProgram fault).response)
      | .ok p =>
          match p.checkWires with
          | .ok _ => s.keep name p 201
          | .error fault =>
              (s, if fault.isInvariant then (Refusal.badWires fault).response else .broken)

/-- Answers with the file of a program. -/
def downloadResponse (name : String) (p : Program) : Response :=
  if p.hasBlocks then (Refusal.blocks name).response
  else
    match R1cs.fileBytes Field.scalars p with
    | .ok bytes =>
        let file := name ++ ".r1cs"
        if Response.fitsLine file then .download file bytes else .broken
    | .error _ => .broken

/-- Checks the witness in a body against a program. -/
def checkResponse (name : String) (body : Body) (p : Program) : Response :=
  if p.hasBlocks then (Refusal.blocks name).response
  else
    match body.fields? with
    | none => Refusal.noObject.response
    | some fields =>
        match Witness.decode Field.scalars (.obj fields) with
        | .error .infiniteNumber => .broken
        | .error fault => (Refusal.badWitness fault).response
        | .ok w => p.check w

def handle (s : Store) : Request → Store × Response
  | .list => (s, .json 200 (.obj [("programs", .arr (s.names.map fun name : String => .str name))]))
  | .save name body => s.save name body
  | .summary name =>
      s.withProgram name fun p => (s, .ofOutcome (.json 200) (p.summary name))
  | .delete name => s.withProgram name fun _ => (s.remove name, .empty 204)
  | .clean name => s.withProgram name fun p => s.keep name p.clean 200
  | .download name => s.withProgram name fun p => (s, downloadResponse name p)
  | .check name body => s.withProgram name fun p => (s, checkResponse name body p)

def run (s : Store) : List Request → Store × List Response
  | [] => (s, [])
  | request :: rest =>
      let (after, response) := s.handle request
      let (last, responses) := run after rest
      (last, response :: responses)

end Store

/-- A store in a file or in memory. -/
structure Database where
  inFile : Bool
  store : Store
deriving Repr

/-- The database as a later service finds it. -/
def Database.reopen (d : Database) : Database :=
  if d.inFile then d else { d with store := Store.empty }

end Circuit

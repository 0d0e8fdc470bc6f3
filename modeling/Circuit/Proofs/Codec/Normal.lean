import Circuit.Proofs.Codec.Decoded
import Circuit.Proofs.Program.Equality

/-!
# The normal form of a stored circuit

One circuit has many spellings: indices with zeros in front or in the digits of any script, numbers where
decimal texts are written, any value as a condition, texts and objects for rows, and fields left out. What
is read is written in one of them, which is read as the same circuit and written as the same value again.

* `Json.NormalProgram` describes the spelling that is written, without reference to the writers.
* `Program.normal_encode`: what was read is written so.
* `Program.proper_of_decode`: what was read from a value without undefined numbers is equal to itself.
* `Program.decode_normalises` puts these together with the stability of the stored form.
-/

namespace Circuit

/-! ### The spelling that is written -/

/-- The texts of variables: plain decimal digits behind the mark of the kind, and no local wire zero. -/
inductive Text.NamesVariable : Text → Prop
  | one : NamesVariable "~one"
  | pub {ds : List Char} (plain : Decimal.Plain ds) : NamesVariable ("~out_" ++ String.ofList ds : String)
  | loc {ds : List Char} (plain : Decimal.Plain ds) (positive : ds ≠ ['0']) :
      NamesVariable ("_" ++ String.ofList ds : String)

namespace Json

def NormalVariable (data : Json) : Prop := ∃ t : Text, data = .str t ∧ t.NamesVariable

/-- Plain decimal digits of a number below the modulus. -/
def NormalCoefficient (F : Field) (data : Json) : Prop :=
  ∃ ds, data = .str (String.ofList ds) ∧ Decimal.Plain ds ∧ Nat.ofDigitChars 10 ds 0 < F.modulus

/-- An array whose items have a property. -/
def Row (P : Json → Prop) (data : Json) : Prop := ∃ items, data = .arr items ∧ ∀ x ∈ items, P x

def NormalTerm (F : Field) (data : Json) : Prop :=
  ∃ name number, data = .arr [name, number] ∧ NormalVariable name ∧ NormalCoefficient F number

def NormalComb (F : Field) : Json → Prop := Row (NormalTerm F)

def NormalQuad (F : Field) (data : Json) : Prop :=
  ∃ left right, data = .obj [("left", left), ("right", right)] ∧ NormalComb F left ∧ NormalComb F right

/-- No tag, or a tag with all its fields. -/
def NormalTag (data : Json) : Prop :=
  data = .null ∨ ∃ kind message, data = .obj [("kind", kind), ("message", message)]

def NormalGroup (F : Field) (data : Json) : Prop :=
  ∃ type combs, data = .arr [type, combs] ∧ Row (NormalComb F) combs

/-- The statements as they are written, at every depth. -/
inductive NormalStatement (F : Field) : Json → Prop
  | constraint {quad lin tag : Json} (quad_normal : NormalQuad F quad) (lin_normal : NormalComb F lin)
      (tag_normal : NormalTag tag) :
      NormalStatement F (.obj [("type", .str "constraint"), ("quad", quad), ("lin", lin), ("error", tag)])
  | directive {inputs outputs name : Json} {parameters : List Json}
      (inputs_normal : Row (NormalQuad F) inputs) (outputs_normal : Row NormalVariable outputs) :
      NormalStatement F (.obj [("type", .str "directive"), ("inputs", inputs), ("outputs", outputs),
        ("solver", .obj [("name", name), ("params", .arr parameters)])])
  | log {format groups : Json} (groups_normal : Row (NormalGroup F) groups) :
      NormalStatement F (.obj [("type", .str "log"), ("format", format), ("expressions", groups)])
  | block {body : List Json} (body_normal : ∀ s ∈ body, NormalStatement F s) :
      NormalStatement F (.obj [("type", .str "block"), ("statements", .arr body)])

/-- A parameter is private or not: the condition is a truth value. -/
def NormalParameter (data : Json) : Prop :=
  ∃ (id : Json) (isPrivate : Bool), data = .obj [("id", id), ("private", .bool isPrivate)] ∧ NormalVariable id

/-- A natural number, or a truth value. -/
def NormalCount (data : Json) : Prop := (∃ n : Nat, data = .int n) ∨ ∃ b : Bool, data = .bool b

def NormalProgram (F : Field) (data : Json) : Prop :=
  ∃ parameters count statements,
    data = .obj [("arguments", parameters), ("return_count", count), ("statements", statements)] ∧
      Row NormalParameter parameters ∧ NormalCount count ∧ Row (NormalStatement F) statements

/-- A row is normal when all its members are. -/
theorem row_map {α : Type} {P : Json → Prop} {encode : α → Json} {as : List α}
    (each : ∀ a ∈ as, P (encode a)) : Row P (.arr (as.map encode)) :=
  ⟨_, rfl, List.forall_mem_map.2 each⟩

end Json

/-! ### What was read is written so -/

open Json

theorem Variable.normal_encode (v : Variable) : NormalVariable v.encode := by
  refine ⟨_, rfl, ?_⟩
  cases v with
  | one => exact .one
  | pub index => exact .pub (Decimal.plain_digits index)
  | loc id positive =>
    refine .loc (Decimal.plain_digits id) fun zero => ?_
    have : id = 0 := Decimal.eq_zero_of_head?_digits (congrArg List.head? zero)
    omega

theorem Parameter.normal_encode (q : Parameter) : NormalParameter q.encode :=
  ⟨_, _, rfl, q.id.normal_encode⟩

theorem ReturnCount.normal_toJson (n : ReturnCount) : NormalCount n.toJson := by
  cases n with
  | number n => exact .inl ⟨n, rfl⟩
  | flag b => exact .inr ⟨b, rfl⟩

/-- A tag is written with both of its fields, also where it was read without a message. -/
theorem ErrorTag.normal_encode (tag : Option ErrorTag) : NormalTag (ErrorTag.encode tag) := by
  cases tag with
  | none => exact .inl rfl
  | some tag => exact .inr ⟨_, _, rfl⟩

section Parts

variable {F : Field}

theorem Element.normal_encode {x : Element} (own : x.field = F) : NormalCoefficient F x.encode := by
  refine ⟨_, rfl, Decimal.plain_digits x.value, ?_⟩
  have value : Nat.ofDigitChars 10 (Decimal.digits x.value) 0 = x.value := Nat.ofDigitChars_ten_toDigits
  rw [value, ← own]
  exact x.reduced

theorem LinComb.normal_encode {data : Json} {a : LinComb} (read : LinComb.decode F data = .ok a) :
    NormalComb F a.encode :=
  row_map fun t member =>
    ⟨_, _, rfl, t.var.normal_encode, Element.normal_encode (LinComb.field_of_decode read t member)⟩

theorem QuadComb.normal_encode {data : Json} {q : QuadComb} (read : QuadComb.decode F data = .ok q) :
    NormalQuad F q.encode := by
  obtain ⟨⟨_, left_read⟩, _, right_read⟩ := QuadComb.parts_of_decode read
  exact ⟨_, _, rfl, LinComb.normal_encode left_read, LinComb.normal_encode right_read⟩

theorem Log.normal_encodeGroup {data : Json} {g : Json × List LinComb}
    (read : Log.decodeGroup F data = .ok g) : NormalGroup F (Log.encodeGroup g) := by
  obtain ⟨-, _, combs_read⟩ := Log.parts_of_decodeGroup read
  refine ⟨_, _, rfl, row_map fun a member => ?_⟩
  obtain ⟨x, -, x_read⟩ := exists_of_mem_decodeRow combs_read member
  exact LinComb.normal_encode x_read

end Parts

namespace Statement

variable {F : Field} {fields : List (Text × Json)}

theorem normal_constraint {c : Constraint} (read : Constraint.decode F fields = .ok c) :
    NormalStatement F (encode (.constraint c)) := by
  obtain ⟨⟨_, quad_read⟩, _, lin_read⟩ := Constraint.parts_of_decode read
  rw [encode]
  exact .constraint (QuadComb.normal_encode quad_read) (LinComb.normal_encode lin_read)
    (ErrorTag.normal_encode c.tag)

theorem normal_directive {d : Directive} (read : Directive.decode F fields = .ok d) :
    NormalStatement F (encode (.directive d)) := by
  obtain ⟨⟨_, inputs_read⟩, -⟩ := Directive.parts_of_decode read
  rw [encode]
  refine .directive (row_map fun q member => ?_) (row_map fun v _ => v.normal_encode)
  obtain ⟨x, -, x_read⟩ := exists_of_mem_decodeRow inputs_read member
  exact QuadComb.normal_encode x_read

theorem normal_log {l : Log} (read : Log.decode F fields = .ok l) :
    NormalStatement F (encode (.log l)) := by
  obtain ⟨-, groups_read⟩ := Log.parts_of_decode read
  rw [encode, Log.encode_eq]
  refine .log (row_map fun g member => ?_)
  obtain ⟨_, x, -, -, x_read⟩ := exists_of_mem_decodeOptional groups_read member
  exact Log.normal_encodeGroup x_read

theorem normal_block {body : List Statement} (each : ∀ s ∈ body, NormalStatement F s.encode) :
    NormalStatement F (encode (.block body)) := by
  rw [encode, encodeAll_eq_map]
  exact .block (List.forall_mem_map.2 each)

/-- The cases that make every stored statement normal, one for each kind. -/
theorem decodeCases_normal (F : Field) :
    DecodeCases F (fun _ => True) fun s => NormalStatement F s.encode where
  fields _ _ _ := trivial
  items _ _ _ := trivial
  constraint _ := normal_constraint
  directive _ := normal_directive
  log _ := normal_log
  block := normal_block

end Statement

theorem Program.normal_encode {F : Field} {data : Json} {p : Program}
    (read : Program.decode F data = .ok p) : NormalProgram F p.encode := by
  have statements := statements_of_decode (Statement.decodeCases_normal F) trivial read
  refine ⟨_, _, _, rfl, row_map fun q _ => q.normal_encode, p.interface.returnCount.normal_toJson, ?_⟩
  rw [Statement.encodeAll_eq_map]
  exact row_map statements

/-! ### What was read equals itself -/

namespace Json

theorem proper_of_field? {fields : List (Text × Json)} {key : Text} {x : Json}
    (proper : (Json.obj fields).Proper) (found : field? fields key = some x) : x.Proper := by
  rw [Proper] at proper
  exact fieldsProper_iff.1 proper.2 _ (mem_of_field? found)

/-- The members of a text and the keys of an object are texts. -/
theorem proper_of_visits {data x : Json} (proper : data.Proper) (visited : data.Visits x) : x.Proper := by
  obtain ⟨items, found, member⟩ := visited
  cases data with
  | arr _ =>
    cases found
    rw [Proper] at proper
    exact allProper_iff.1 proper x member
  | str s =>
    cases found
    obtain ⟨p, -, rfl⟩ := List.mem_map.1 member
    exact trivial
  | obj fields =>
    cases found
    obtain ⟨f, -, rfl⟩ := List.mem_map.1 member
    exact trivial
  | _ => cases found

end Json

namespace Statement

variable {F : Field} {fields : List (Text × Json)} (proper : (Json.obj fields).Proper)

include proper

theorem ownProper_directive {d : Directive} (read : Directive.decode F fields = .ok d) :
    (Statement.directive d).OwnProper := by
  obtain ⟨-, -, ⟨solver, solver_found, name, parameters⟩, -⟩ := Directive.parts_of_decode read
  have solver_proper := proper_of_field? proper solver_found
  refine ⟨proper_of_field? solver_proper name, allProper_iff.2 fun x member => ?_⟩
  obtain ⟨data, _, found, visited, same⟩ := exists_of_mem_decodeOptional parameters member
  cases same
  exact proper_of_visits (proper_of_field? solver_proper found) visited

theorem ownProper_log {l : Log} (read : Log.decode F fields = .ok l) : (Statement.log l).OwnProper := by
  obtain ⟨format, groups_read⟩ := Log.parts_of_decode read
  refine ⟨proper_of_field? proper format, fun g member => ?_⟩
  obtain ⟨data, x, found, visited, g_read⟩ := exists_of_mem_decodeOptional groups_read member
  have x_proper := proper_of_visits (proper_of_field? proper found) visited
  exact proper_of_visits x_proper (Log.parts_of_decodeGroup g_read).1

omit proper

/-- What is read from proper data is proper: names and texts are taken over as they are. -/
theorem decodeCases_proper (F : Field) : DecodeCases F Json.Proper Proper where
  fields held f member := by
    rw [Json.Proper] at held
    exact fieldsProper_iff.1 held.2 f member
  items held x member := by
    rw [Json.Proper] at held
    exact allProper_iff.1 held x member
  constraint _ _ := (forall_mem_flatten rfl).2 trivial
  directive held read := (forall_mem_flatten rfl).2 (ownProper_directive held read)
  log held read := (forall_mem_flatten rfl).2 (ownProper_log held read)
  block each := by
    rw [Proper, flatten]
    exact forall_mem_flattenAll.2 each

end Statement

/-- The names and texts of a program are those of the value that it was read from. -/
theorem Program.proper_of_decode {F : Field} {data : Json} {p : Program} (proper : data.Proper)
    (read : Program.decode F data = .ok p) : p.Proper :=
  Statement.forall_mem_flattenAll.2 (statements_of_decode (Statement.decodeCases_proper F) proper read)

/-! ### Normal forms -/

/-- Whatever spelling a program was read from, it is written in the normal one. This is read as an equal
program with the same tags, and that is written as the same value. -/
theorem Program.decode_normalises (F : Field) (short : F.modulus ≤ 10 ^ Decimal.digitLimit) {data : Json}
    (proper : data.Proper) {p : Program} (read : Program.decode F data = .ok p) :
    NormalProgram F p.encode ∧
      ∃ q, Program.decode F p.encode = .ok q ∧ q.same p = true ∧ q.tags = p.tags ∧ q.encode = p.encode :=
  ⟨normal_encode read, p, decode_encode_of_decode short read, same_self (proper_of_decode proper read),
    rfl, rfl⟩

/-- A program with an index and a coefficient in digits of other scripts and with zeros in front, numbers and
a truth value for decimal texts, texts and an object for rows, conditions of other types, and without the
fields that may be left out. -/
def padded : Json :=
  .obj [("arguments", .arr [.obj [("id", .str " ~out_٠0 "), ("private", .str "")],
      .obj [("id", .str "_0０7"), ("private", .arr [.null])]]),
    ("statements", .arr [
      .obj [("type", .str "block"), ("statements", .arr [
        .obj [("type", .str "constraint"),
          ("quad", .obj [("left", .arr [.arr [.str "_٢", .real (.finite false 3 0)]]), ("right", .str "")]),
          ("lin", .arr [.arr [.str "~one", .bool true], .arr [.str "_2", .str "+0_٤"]])]])],
      .obj [("type", .str "log"), ("format", .null), ("expressions", .arr [.arr [.int 1, .str ""]])],
      .obj [("type", .str "directive"), ("inputs", .obj []), ("outputs", .arr []),
        ("solver", .obj [("name", .str "Ask"), ("params", .str "ab")])]])]

/-- The program that these spell. -/
def unpadded : Program :=
  ⟨⟨[⟨.pub 0, false⟩, ⟨.loc 7 (Nat.succ_pos 6), true⟩], .number 0⟩,
    [.block [.constraint ⟨⟨⟨[⟨.loc 2 Nat.two_pos, Field.eleven.element 3⟩]⟩, ⟨[]⟩⟩,
        ⟨[⟨.one, Field.eleven.element 1⟩, ⟨.loc 2 Nat.two_pos, Field.eleven.element 4⟩]⟩, none⟩],
      .log ⟨.null, [(.int 1, [])]⟩, .directive ⟨[], [], ⟨.str "Ask", [.str "a", .str "b"]⟩⟩]⟩

theorem decode_padded : Program.decode Field.eleven padded = .ok unpadded := rfl

theorem proper_padded : padded.Proper := by
  simp +decide [padded, Json.Proper, AllProper, FieldsProper]

theorem short_eleven : Field.eleven.modulus ≤ 10 ^ Decimal.digitLimit :=
  Nat.le_trans (by decide : 11 ≤ 10 ^ 2) (Nat.pow_le_pow_right (by decide) (by decide))

/-- The program is written without the padding, and stays as it is. -/
theorem Program.decode_normalises_padded :
    Program.decode Field.eleven padded = .ok unpadded ∧ NormalProgram Field.eleven unpadded.encode ∧
      ∃ q, Program.decode Field.eleven unpadded.encode = .ok q ∧ q.same unpadded = true ∧
        q.tags = unpadded.tags ∧ q.encode = unpadded.encode :=
  ⟨decode_padded, decode_normalises Field.eleven short_eleven proper_padded decode_padded⟩

end Circuit

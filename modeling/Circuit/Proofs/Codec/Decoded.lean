import Circuit.Proofs.Codec.Parts
import Circuit.Proofs.Codec.Stored
import Circuit.Proofs.Field.Text
import Circuit.Proofs.Statement.Flatten
import Circuit.Proofs.Variable.Text

/-!
# The stored form is stable

The readers accept more than the writers produce. Whatever was read, however, is written in a form
that is read as the same thing again, as long as the elements of the field have few enough digits.

* `Statement.Stable` says that the stored form of a statement is read as the statement.
* `Statement.decodeCases_stable` and `Program.decode_encode_of_decode`: whatever was read is stable.
* `Program.decode_encode_clean`: and it stays so when statements are taken out of their blocks.
* `Program.field_of_decode_encode`: the coefficients are then elements of the field.
-/

namespace Circuit

/-! ### Rows -/

section Rows

variable {α : Type} {decode : Json → Except Fault α} {encode : α → Json}

/-- A row that was read is read again when each of its members is. -/
theorem decodeEach_map_of_decodeRow (again : ∀ x a, decode x = .ok a → decode (encode a) = .ok a)
    {data : Json} {as : List α} (read : decodeRow decode data = .ok as) :
    decodeEach decode (as.map encode) = .ok as := by
  refine decodeEach_map_ok fun a member => ?_
  obtain ⟨x, -, x_read⟩ := exists_of_mem_decodeRow read member
  exact again x a x_read

end Rows

/-! ### Parts -/

theorem Variable.decode_encode_of_decode {data : Json} {v : Variable}
    (read : Variable.decode data = .ok v) : Variable.decode v.encode = .ok v := by
  unfold Variable.decode at read
  split at read
  · exact Variable.parse_text v (Variable.writable_of_parse read)
  · cases read

theorem Parameter.decode_encode_of_decode {data : Json} {q : Parameter}
    (read : Parameter.decode data = .ok q) : Parameter.decode q.encode = .ok q := by
  obtain ⟨_, id_read⟩ := Parameter.parts_of_decode read
  rw [Parameter.decode_encode_eq, Variable.decode_encode_of_decode id_read]
  rfl

section Parts

variable {F : Field} (short : F.modulus ≤ 10 ^ Decimal.digitLimit)

include short

/-- The value of an element that was read is reduced, and its digits are few enough to be read again. -/
theorem Field.read_encode_of_read {data : Json} {x : Element} (read : F.read data = .ok x) :
    F.read x.encode = .ok x := by
  obtain rfl := Field.field_of_read read
  have writable : x.Writable :=
    (Decimal.isWritable_natCast x.value).2 (Nat.lt_of_lt_of_le x.reduced short)
  rw [Field.read_encode _ writable, if_pos x.reduced, x.recast_self]

theorem Term.decode_encode_of_decode {data : Json} {t : Term} (read : Term.decode F data = .ok t) :
    Term.decode F t.encode = .ok t := by
  obtain ⟨⟨_, v_read⟩, _, x_read⟩ := Term.parts_of_decode read
  rw [Term.decode_encode_eq, Variable.decode_encode_of_decode v_read,
    Field.read_encode_of_read short x_read]
  rfl

theorem LinComb.decode_encode_of_decode {data : Json} {a : LinComb}
    (read : LinComb.decode F data = .ok a) : LinComb.decode F a.encode = .ok a := by
  rw [LinComb.decode_encode_eq,
    decodeEach_map_of_decodeRow (fun _ _ => Term.decode_encode_of_decode short) (parts_of_decode read)]
  rfl

theorem QuadComb.decode_encode_of_decode {data : Json} {q : QuadComb}
    (read : QuadComb.decode F data = .ok q) : QuadComb.decode F q.encode = .ok q := by
  obtain ⟨⟨_, left_read⟩, _, right_read⟩ := QuadComb.parts_of_decode read
  rw [QuadComb.decode_encode_eq, LinComb.decode_encode_of_decode short left_read,
    LinComb.decode_encode_of_decode short right_read]
  rfl

theorem Log.decodeGroup_encodeGroup_of_decodeGroup {data : Json} {g : Json × List LinComb}
    (read : Log.decodeGroup F data = .ok g) : Log.decodeGroup F (Log.encodeGroup g) = .ok g := by
  obtain ⟨-, _, combs_read⟩ := Log.parts_of_decodeGroup read
  rw [Log.decodeGroup_encodeGroup_eq,
    decodeEach_map_of_decodeRow (fun _ _ => LinComb.decode_encode_of_decode short) combs_read]
  rfl

end Parts

/-! ### Statements -/

namespace Statement

/-- The stored form of a statement is read as the statement. -/
def Stable (F : Field) (s : Statement) : Prop := decode F s.encode = .ok s

/-- The statements of a stored row are read one by one. -/
theorem decodeItems_encodeAll_eq_ok {F : Field} {ss : List Statement} :
    decodeItems F (encodeAll ss) = .ok ss ↔ ∀ s ∈ ss, s.Stable F := by
  induction ss with
  | nil => exact ⟨fun _ s member => absurd member List.not_mem_nil, fun _ => rfl⟩
  | cons s rest ih =>
      rw [decodeItems_encodeAll_cons, List.forall_mem_cons, ← ih]
      constructor
      · intro read
        obtain ⟨t, t_read, read⟩ := Except.bind_eq_ok.1 read
        obtain ⟨others, others_read, joined⟩ := Except.map_eq_ok.1 read
        obtain ⟨rfl, rfl⟩ := List.cons.inj joined
        exact ⟨t_read, others_read⟩
      · rintro ⟨first, others⟩
        rw [Stable] at first
        rw [first, others]
        rfl

/-- A block is stable when its statements are. -/
theorem stable_block {F : Field} {body : List Statement} :
    (Statement.block body).Stable F ↔ ∀ s ∈ body, s.Stable F := by
  rw [Stable, decode_encode_block, ← decodeItems_encodeAll_eq_ok]
  constructor
  · intro read
    obtain ⟨ss, ss_read, equal⟩ := Except.map_eq_ok.1 read
    cases equal
    exact ss_read
  · intro read
    rw [read]
    rfl

mutual

/-- The statements of a stable statement are stable outside of their blocks. -/
theorem stable_of_mem_flatten {F : Field} : ∀ s : Statement, s.Stable F →
    ∀ t ∈ s.flatten, t.Stable F
  | .constraint c, stable => by simpa [flatten] using stable
  | .directive d, stable => by simpa [flatten] using stable
  | .log l, stable => by simpa [flatten] using stable
  | .block body, stable => by
      rw [flatten]
      exact stable_of_mem_flattenAll body (stable_block.1 stable)

theorem stable_of_mem_flattenAll {F : Field} : ∀ ss : List Statement, (∀ s ∈ ss, s.Stable F) →
    ∀ t ∈ flattenAll ss, t.Stable F
  | [], _ => fun _ member => absurd member List.not_mem_nil
  | s :: rest, stable => by
      rw [List.forall_mem_cons] at stable
      exact forall_mem_flattenAll_cons.2
        ⟨stable_of_mem_flatten s stable.1, stable_of_mem_flattenAll rest stable.2⟩

end

section Decoded

variable {F : Field} (short : F.modulus ≤ 10 ^ Decimal.digitLimit)

include short

theorem stable_constraint {fields : List (Text × Json)} {c : Constraint}
    (read : Constraint.decode F fields = .ok c) : (Statement.constraint c).Stable F := by
  obtain ⟨⟨_, quad_read⟩, _, lin_read⟩ := Constraint.parts_of_decode read
  rw [Stable, encode, Constraint.decode_encode_eq, QuadComb.decode_encode_of_decode short quad_read,
    LinComb.decode_encode_of_decode short lin_read]
  rfl

/-- The solver was checked when the directive was read, and is checked with the same outcome again. -/
theorem stable_directive {fields : List (Text × Json)} {d : Directive}
    (read : Directive.decode F fields = .ok d) : (Statement.directive d).Stable F := by
  obtain ⟨⟨_, inputs_read⟩, ⟨_, outputs_read⟩, -, made⟩ := Directive.parts_of_decode read
  -- Nothing is asked of the name and the parameters: they come back as the values that they are.
  rw [Stable, encode, Directive.decode_encode_eq,
    decodeEach_map_of_decodeRow (fun _ _ => QuadComb.decode_encode_of_decode short) inputs_read,
    decodeEach_map_of_decodeRow (fun _ _ => Variable.decode_encode_of_decode) outputs_read]
  exact congrArg (Except.map Statement.directive) made

theorem stable_log {fields : List (Text × Json)} {l : Log} (read : Log.decode F fields = .ok l) :
    (Statement.log l).Stable F := by
  obtain ⟨-, groups_read⟩ := Log.parts_of_decode read
  have again : decodeEach (Log.decodeGroup F) (l.groups.map Log.encodeGroup) = .ok l.groups := by
    refine decodeEach_map_ok fun g member => ?_
    obtain ⟨_, x, -, -, x_read⟩ := exists_of_mem_decodeOptional groups_read member
    exact Log.decodeGroup_encodeGroup_of_decodeGroup short x_read
  rw [Stable, encode, Log.decode_encode_eq, again]
  rfl

end Decoded

/-- Every kind of statement is stable once its parts are; blocks pass this on from their bodies. -/
theorem decodeCases_stable {F : Field} (short : F.modulus ≤ 10 ^ Decimal.digitLimit) :
    DecodeCases F (fun _ => True) (Stable F) where
  fields _ _ _ := trivial
  items _ _ _ := trivial
  constraint _ := stable_constraint short
  directive _ := stable_directive short
  log _ := stable_log short
  block := stable_block.2

end Statement

/-! ### Coefficients -/

section Coefficients

variable {F : Field}

/-- Nothing but elements of the field is read as a coefficient. -/
theorem LinComb.field_of_decode {data : Json} {a : LinComb} (read : LinComb.decode F data = .ok a) :
    ∀ t ∈ a.terms, t.coeff.field = F := by
  intro t member
  obtain ⟨x, -, t_read⟩ := exists_of_mem_decodeRow (parts_of_decode read) member
  obtain ⟨-, _, coeff_read⟩ := Term.parts_of_decode t_read
  exact Field.field_of_read coeff_read

/-- The coefficients of a constraint that is read as itself are elements of the field. -/
theorem Constraint.field_of_stable {c : Constraint} (stable : (Statement.constraint c).Stable F) :
    ∀ a ∈ c.combs, ∀ t ∈ a.terms, t.coeff.field = F := by
  obtain ⟨⟨l, r⟩, m, tag⟩ := c
  rw [Statement.Stable, Statement.encode, Constraint.decode_encode_eq] at stable
  obtain ⟨c, read, same⟩ := Except.map_eq_ok.1 stable
  obtain ⟨quad, quad_read, read⟩ := Except.bind_eq_ok.1 read
  obtain ⟨lin, lin_read, read⟩ := Except.bind_eq_ok.1 read
  cases read
  cases same
  rw [QuadComb.decode_encode_eq] at quad_read
  obtain ⟨left, left_read, quad_read⟩ := Except.bind_eq_ok.1 quad_read
  obtain ⟨right, right_read, quad_read⟩ := Except.bind_eq_ok.1 quad_read
  cases quad_read
  rw [Constraint.forall_mem_combs]
  exact ⟨LinComb.field_of_decode left_read, LinComb.field_of_decode right_read,
    LinComb.field_of_decode lin_read⟩

end Coefficients

/-! ### Programs -/

namespace Program

variable {F : Field} {p : Program}

/-- The stored form of a program is read as the program when that of each part is. -/
theorem decode_encode_eq_ok
    (parameters : ∀ q ∈ p.interface.parameters, Parameter.decode q.encode = .ok q)
    (statements : ∀ s ∈ p.statements, s.Stable F) : Program.decode F p.encode = .ok p := by
  rw [Program.decode_encode_eq, decodeEach_map_ok parameters,
    Statement.decodeItems_encodeAll_eq_ok.2 statements]
  rfl

/-- Whatever is read as a program is read again from its stored form. -/
theorem decode_encode_of_decode (short : F.modulus ≤ 10 ^ Decimal.digitLimit) {data : Json}
    (read : Program.decode F data = .ok p) : Program.decode F p.encode = .ok p := by
  obtain ⟨fields, -, parameters, -⟩ := parts_of_decode read
  refine decode_encode_eq_ok (fun q member => ?_)
    (statements_of_decode (Statement.decodeCases_stable short) trivial read)
  obtain ⟨x, x_read⟩ := parameters q member
  exact Parameter.decode_encode_of_decode x_read

/-- A program that is read from its stored form is made of stable statements. -/
theorem stable_of_decode_encode (read : Program.decode F p.encode = .ok p) :
    ∀ s ∈ p.statements, s.Stable F := by
  rw [Program.decode_encode_eq] at read
  obtain ⟨parameters, -, read⟩ := Except.bind_eq_ok.1 read
  obtain ⟨statements, statements_read, read⟩ := Except.bind_eq_ok.1 read
  obtain ⟨-, rfl⟩ := Program.mk.inj (Except.ok.inj read)
  exact Statement.decodeItems_encodeAll_eq_ok.1 statements_read

/-- The coefficients of a program that is read from its stored form are elements of the field. -/
theorem field_of_decode_encode (read : Program.decode F p.encode = .ok p) :
    ∀ c ∈ p.constraints, ∀ a ∈ c.combs, ∀ t ∈ a.terms, t.coeff.field = F := by
  intro c member
  obtain ⟨s, s_member, found⟩ := List.mem_filterMap.1 member
  have stable := stable_of_decode_encode read s s_member
  cases s with
  | constraint d =>
      cases found
      exact Constraint.field_of_stable stable
  | directive d => cases found
  | log l => cases found
  | block body => cases found

/-- Where the stored form is read as the program, so it is once the blocks are gone. -/
theorem decode_encode_clean (read : Program.decode F p.encode = .ok p) :
    Program.decode F p.clean.encode = .ok p.clean := by
  rw [Program.decode_encode_eq] at read
  obtain ⟨parameters, parameters_read, read⟩ := Except.bind_eq_ok.1 read
  obtain ⟨statements, statements_read, read⟩ := Except.bind_eq_ok.1 read
  obtain ⟨interface_eq, rfl⟩ := Program.mk.inj (Except.ok.inj read)
  have parameters_eq : parameters = p.interface.parameters := congrArg Interface.parameters interface_eq
  have stable := Statement.stable_of_mem_flattenAll _
    (Statement.decodeItems_encodeAll_eq_ok.1 statements_read)
  rw [Program.decode_encode_eq, clean, Statement.decodeItems_encodeAll_eq_ok.2 stable, parameters_read,
    parameters_eq]
  rfl

end Program

end Circuit

import Circuit.Proofs.Codec.Recast
import Circuit.Proofs.Variable.Text

/-!
# Reading circuits back

A written circuit is read into any field that has room for its coefficients. It is then the same
circuit with its coefficients taken to the field. A field without room refuses the first coefficient
that it has no room for, in the order of reading.

* `Field.accept` is the outcome of reading coefficients: `accept_bind` puts rows of them together.
* `Program.decode_encode`: what becomes of a written program in any field.
* `decode_encode_faithful`: nothing is lost, where it fits; and what does not fit is refused.
-/

namespace Circuit

namespace Field

/-- A result, provided that the field has room for some elements; else the fault of the first for which
it has not. -/
def accept {α : Type} (F : Field) (xs : List Element) (a : α) : Except Fault α :=
  match xs.find? fun x => F.modulus ≤ x.value with
  | none => .ok a
  | some x => .error (.outsideField x.text)

section Accept

variable {α β : Type} {F : Field} {xs ys : List Element} {a : α} {b : β}

/-- The first coefficient without room decides. -/
theorem accept_cons {x : Element} :
    F.accept (x :: xs) a =
      if x.value < F.modulus then F.accept xs a else .error (.outsideField x.text) := by
  unfold accept
  by_cases fits : x.value < F.modulus
  · rw [List.find?_cons_of_neg (by simpa using fits), if_pos fits]
  · rw [List.find?_cons_of_pos (by simpa using fits), if_neg fits]

theorem accept_map (f : α → β) : (F.accept xs a).map f = F.accept xs (f a) := by
  unfold accept
  cases xs.find? fun x => F.modulus ≤ x.value <;> rfl

theorem accept_return (f : α → β) : (F.accept xs a >>= fun a => return f a) = F.accept xs (f a) :=
  accept_map f

/-- A step that needs room for more elements comes after a step that needs room for some. -/
theorem accept_bind {next : α → Except Fault β} (step : next a = F.accept ys b) :
    (F.accept xs a >>= next) = F.accept (xs ++ ys) b := by
  induction xs with
  | nil => exact step
  | cons x xs ih =>
      rw [List.cons_append, accept_cons, accept_cons]
      by_cases fits : x.value < F.modulus
      · rw [if_pos fits, if_pos fits]
        exact ih
      · rw [if_neg fits, if_neg fits]
        rfl

/-- With room for all of them nothing is refused. -/
theorem accept_of_hasRoom (room : F.HasRoom xs) : F.accept xs a = .ok a := by
  have none_found : xs.find? (fun x => F.modulus ≤ x.value) = none :=
    List.find?_eq_none.2 fun x member => by simpa using room x member
  unfold accept
  rw [none_found]

/-- The coefficient that is named is one of those without room. -/
theorem accept_of_not_hasRoom (narrow : ¬ F.HasRoom xs) :
    ∃ x ∈ xs, F.modulus ≤ x.value ∧ F.accept xs a = .error (.outsideField x.text) := by
  unfold accept
  cases found : xs.find? fun x => F.modulus ≤ x.value with
  | none =>
      refine absurd (fun x member => ?_) narrow
      simpa using List.find?_eq_none.1 found x member
  | some x =>
      exact ⟨x, List.mem_of_find?_eq_some found, by simpa using List.find?_some found, rfl⟩

end Accept

end Field

/-! ### What can be written -/

/-- The index and the coefficient have few enough digits to be written. -/
structure Term.Writable (t : Term) : Prop where
  var : t.var.Writable
  coeff : t.coeff.Writable

def LinComb.Writable (a : LinComb) : Prop := ∀ t ∈ a.terms, t.Writable

structure QuadComb.Writable (q : QuadComb) : Prop where
  left : q.left.Writable
  right : q.right.Writable

structure Constraint.Writable (c : Constraint) : Prop where
  quad : c.quad.Writable
  lin : c.lin.Writable

/-- The numbers of a directive can be written, and its solver takes as many inputs and outputs as it
has. -/
structure Directive.Writable (d : Directive) : Prop where
  inputs : ∀ q ∈ d.inputs, q.Writable
  outputs : ∀ v ∈ d.outputs, v.Writable
  made : Directive.make d.inputs d.outputs d.solver = .ok d

def Log.Writable (l : Log) : Prop := ∀ g ∈ l.groups, ∀ a ∈ g.2, a.Writable

/-- A statement outside of blocks whose numbers can be written. -/
def Statement.OwnWritable : Statement → Prop
  | .constraint c => c.Writable
  | .directive d => d.Writable
  | .log l => l.Writable
  | .block _ => True

def Statement.Writable (s : Statement) : Prop := ∀ t ∈ s.flatten, t.OwnWritable

/-- A program whose numbers can be written, at every depth. -/
structure Program.Writable (p : Program) : Prop where
  parameters : ∀ q ∈ p.interface.parameters, q.id.Writable
  statements : ∀ t ∈ p.clean.statements, t.OwnWritable

/-! ### Reading each part back -/

section Parts

variable (F : Field)

theorem Variable.decode_encode {v : Variable} (writable : v.Writable) :
    Variable.decode v.encode = .ok v :=
  Variable.parse_text v writable

/-- A term is read back in the field, if that has room for its coefficient. -/
theorem Term.decode_encode {t : Term} (writable : t.Writable) :
    Term.decode F t.encode = F.accept [t.coeff] (t.recast F) := by
  rw [Term.decode_encode_eq, Variable.decode_encode writable.var, F.read_encode writable.coeff,
    Field.accept_cons]
  by_cases fits : t.coeff.value < F.modulus
  · rw [if_pos fits, if_pos fits]
    rfl
  · rw [if_neg fits, if_neg fits]
    rfl

/-- A row is read back when each of its members is. -/
theorem decodeEach_map {α : Type} {decode : Json → Except Fault α} {encode : α → Json}
    {recast : α → α} {coefficients : α → List Element} {as : List α}
    (each : ∀ a ∈ as, decode (encode a) = F.accept (coefficients a) (recast a)) :
    decodeEach decode (as.map encode) = F.accept (as.flatMap coefficients) (as.map recast) := by
  induction as with
  | nil => rfl
  | cons a rest ih =>
      obtain ⟨first, others⟩ := List.forall_mem_cons.1 each
      rw [decodeEach_map_cons, first, List.flatMap_cons]
      exact Field.accept_bind (by rw [ih others, Field.accept_map, List.map_cons])

theorem LinComb.decode_encode {a : LinComb} (writable : a.Writable) :
    LinComb.decode F a.encode = F.accept a.coefficients (a.recast F) := by
  have coefficients : a.terms.flatMap (fun t => [t.coeff]) = a.coefficients := by
    rw [LinComb.coefficients, List.map_eq_flatMap]
  rw [LinComb.decode_encode_eq,
    decodeEach_map F fun t member => Term.decode_encode F (writable t member), Field.accept_map,
    coefficients]
  rfl

theorem QuadComb.decode_encode {q : QuadComb} (writable : q.Writable) :
    QuadComb.decode F q.encode = F.accept q.coefficients (q.recast F) := by
  rw [QuadComb.decode_encode_eq, LinComb.decode_encode F writable.left,
    LinComb.decode_encode F writable.right]
  exact Field.accept_bind (Field.accept_return fun right => QuadComb.mk (q.left.recast F) right)

/-- A constraint is refused for the first of its coefficients that has no room, in the order in which they are
written. -/
theorem Constraint.decode_encode {c : Constraint} (writable : c.Writable) :
    Statement.decode F c.encode = F.accept c.coefficients (.constraint (c.recast F)) := by
  rw [Constraint.decode_encode_eq, QuadComb.decode_encode F writable.quad,
    LinComb.decode_encode F writable.lin]
  have read : (do
      let quad ← F.accept c.quad.coefficients (c.quad.recast F)
      let lin ← F.accept c.lin.coefficients (c.lin.recast F)
      return ⟨quad, lin, c.tag⟩ : Except Fault Constraint) =
      F.accept c.coefficients (c.recast F) :=
    Field.accept_bind (Field.accept_return fun lin => Constraint.mk (c.quad.recast F) lin c.tag)
  exact (congrArg (Except.map Statement.constraint) read).trans (Field.accept_map _)

theorem Directive.decode_encode {d : Directive} (writable : d.Writable) :
    Statement.decode F d.encode = F.accept d.coefficients (.directive (d.recast F)) := by
  have inputs : decodeEach (QuadComb.decode F) (d.inputs.map QuadComb.encode) =
      F.accept d.coefficients (d.inputs.map (QuadComb.recast F)) :=
    decodeEach_map F fun q member => QuadComb.decode_encode F (writable.inputs q member)
  have outputs : decodeEach Variable.decode (d.outputs.map Variable.encode) = .ok d.outputs :=
    decodeEach_map_ok fun v member => Variable.decode_encode (writable.outputs v member)
  -- The solver is shown as many inputs as before.
  have made : Directive.make (d.inputs.map (QuadComb.recast F)) d.outputs d.solver =
      F.accept [] (d.recast F) := by
    obtain ⟨checked, arity, -⟩ := Except.map_eq_ok.1 writable.made
    unfold Directive.make
    rw [List.length_map]
    exact Except.map_eq_ok.2 ⟨checked, arity, rfl⟩
  have read : (do
      let inputs ← F.accept d.coefficients (d.inputs.map (QuadComb.recast F))
      Directive.make inputs d.outputs d.solver) = F.accept (d.coefficients ++ []) (d.recast F) :=
    Field.accept_bind made
  rw [Directive.decode_encode_eq, inputs, outputs]
  refine (congrArg (Except.map Statement.directive) read).trans ?_
  rw [List.append_nil, Field.accept_map]

theorem Log.decodeGroup_encodeGroup {g : Json × List LinComb} (writable : ∀ a ∈ g.2, a.Writable) :
    Log.decodeGroup F (Log.encodeGroup g) =
      F.accept (Log.groupCoefficients g) (Log.recastGroup F g) := by
  rw [Log.decodeGroup_encodeGroup_eq,
    decodeEach_map F fun a member => LinComb.decode_encode F (writable a member)]
  exact Field.accept_return fun combs => (g.1, combs)

theorem Log.decode_encode {l : Log} (writable : l.Writable) :
    Statement.decode F l.encode = F.accept l.coefficients (.log (l.recast F)) := by
  rw [Log.decode_encode_eq,
    decodeEach_map F fun g member => Log.decodeGroup_encodeGroup F (writable g member)]
  refine (congrArg (Except.map Statement.log)
    (Field.accept_return fun groups => Log.mk l.format groups)).trans ?_
  rw [Field.accept_map]
  rfl

end Parts

namespace Statement

variable (F : Field)

mutual

/-- What becomes of a written statement in a field. -/
theorem decode_encode : ∀ s : Statement, s.Writable →
    decode F s.encode = F.accept s.coefficients (s.recast F)
  | .constraint c, writable => by
      rw [Writable, forall_mem_flatten rfl] at writable
      rw [encode, coefficients_of_not_block rfl, recast]
      exact Constraint.decode_encode F writable
  | .directive d, writable => by
      rw [Writable, forall_mem_flatten rfl] at writable
      rw [encode, coefficients_of_not_block rfl, recast]
      exact Directive.decode_encode F writable
  | .log l, writable => by
      rw [Writable, forall_mem_flatten rfl] at writable
      rw [encode, coefficients_of_not_block rfl, recast]
      exact Log.decode_encode F writable
  | .block body, writable => by
      rw [Writable, flatten] at writable
      rw [decode_encode_block, decodeItems_encodeAll body writable, Field.accept_map,
        coefficients_block, recast]

/-- What becomes of a row of written statements in a field. -/
theorem decodeItems_encodeAll : ∀ ss : List Statement, (∀ t ∈ flattenAll ss, t.OwnWritable) →
    decodeItems F (encodeAll ss) = F.accept (coefficientsAll ss) (recastAll F ss)
  | [], _ => rfl
  | s :: rest, writable => by
      -- The coefficients of the first statement come before those of the others, as they are read.
      rw [forall_mem_flattenAll_cons] at writable
      rw [decodeItems_encodeAll_cons, decode_encode s writable.1, coefficientsAll_cons, recastAll]
      exact Field.accept_bind
        (by rw [decodeItems_encodeAll rest writable.2, Field.accept_map])

end

end Statement

theorem Parameter.decode_encode {q : Parameter} (writable : q.id.Writable) :
    Parameter.decode q.encode = .ok q := by
  rw [Parameter.decode_encode_eq, Variable.decode_encode writable]
  rfl

/-- What becomes of a written program in a field. -/
theorem Program.decode_encode (F : Field) {p : Program} (writable : p.Writable) :
    Program.decode F p.encode = F.accept p.coefficients (p.recast F) := by
  have parameters : decodeEach Parameter.decode (p.interface.parameters.map Parameter.encode) =
      .ok p.interface.parameters :=
    decodeEach_map_ok fun q member => Parameter.decode_encode (writable.parameters q member)
  rw [Program.decode_encode_eq, parameters,
    Statement.decodeItems_encodeAll F p.statements writable.statements]
  exact Field.accept_return fun statements => Program.mk p.interface statements

/-! ### Nothing is lost -/

/-- A written statement or program is read into a field exactly if the field has room for all its
coefficients. It is then equal to what was written, its constraints have the same tags at every depth,
and it is written in the same way. A field without room refuses a coefficient that it has no room
for. -/
theorem decode_encode_faithful (F : Field) :
    (∀ s : Statement, s.Writable → s.Proper →
      (F.HasRoom s.coefficients → ∃ t, Statement.decode F s.encode = .ok t ∧ t.same s = true ∧
        t.tags = s.tags ∧ t.encode = s.encode) ∧
      (¬ F.HasRoom s.coefficients → ∃ x ∈ s.coefficients, F.modulus ≤ x.value ∧
        Statement.decode F s.encode = .error (.outsideField x.text))) ∧
    (∀ p : Program, p.Writable → p.Proper →
      (F.HasRoom p.coefficients → ∃ q, Program.decode F p.encode = .ok q ∧ q.same p = true ∧
        q.tags = p.tags ∧ q.encode = p.encode) ∧
      (¬ F.HasRoom p.coefficients → ∃ x ∈ p.coefficients, F.modulus ≤ x.value ∧
        Program.decode F p.encode = .error (.outsideField x.text))) := by
  constructor
  · intro s writable proper
    rw [Statement.decode_encode F s writable]
    refine ⟨fun room => ?_, Field.accept_of_not_hasRoom⟩
    exact ⟨s.recast F, Field.accept_of_hasRoom room, Statement.recast_same s room proper,
      Statement.tags_recast F s, Statement.encode_recast s room⟩
  · intro p writable proper
    rw [Program.decode_encode F writable]
    refine ⟨fun room => ?_, Field.accept_of_not_hasRoom⟩
    exact ⟨p.recast F, Field.accept_of_hasRoom room, Program.recast_same room proper,
      Program.tags_recast F p, Program.encode_recast room⟩

/-! ### A circuit with blocks inside blocks -/

def Field.eleven : Field := .residues 11 (by decide)

def Field.five : Field := .residues 5 (by decide)

/-- Six times the first local wire, in the field with eleven elements. -/
def sixfold : LinComb := ⟨[⟨.loc 1 Nat.one_pos, Field.eleven.element 6⟩]⟩

/-- A block with a message and, in a block of its own, a constraint with a tag. -/
def nestedBlock : Statement :=
  .block [.log ⟨.str "x", [(.str "Field", [sixfold])]⟩,
    .block [.constraint ⟨⟨sixfold, sixfold⟩, sixfold, some ⟨.str "Overflow", .null⟩⟩]]

/-- The nested block, and the splitting of a number into two bits. -/
def nestedProgram : Program :=
  ⟨⟨[⟨.loc 1 Nat.one_pos, true⟩, ⟨.pub 1, false⟩], .number 1⟩,
    [nestedBlock, .directive ⟨[⟨sixfold, sixfold⟩], [.loc 2 Nat.two_pos, .pub 0],
      Solver.bits (.int 2)⟩]⟩

theorem writable_sixfold : sixfold.Writable := by
  intro t member
  obtain rfl := List.mem_singleton.1 member
  exact ⟨Decimal.isWritable_of_lt (by decide : 1 < 10 ^ 1) (by decide),
    Decimal.isWritable_of_lt (by decide : 6 < 10 ^ 1) (by decide)⟩

theorem writable_nestedBlock : nestedBlock.Writable := by
  have flat : nestedBlock.flatten = [.log ⟨.str "x", [(.str "Field", [sixfold])]⟩,
      .constraint ⟨⟨sixfold, sixfold⟩, sixfold, some ⟨.str "Overflow", .null⟩⟩] := rfl
  unfold Statement.Writable
  rw [flat, List.forall_mem_cons, List.forall_mem_singleton]
  constructor
  · intro g g_member a a_member
    obtain rfl := List.mem_singleton.1 g_member
    obtain rfl := List.mem_singleton.1 a_member
    exact writable_sixfold
  · exact ⟨⟨writable_sixfold, writable_sixfold⟩, writable_sixfold⟩

theorem proper_nestedBlock : nestedBlock.Proper := by
  have flat : nestedBlock.flatten = [.log ⟨.str "x", [(.str "Field", [sixfold])]⟩,
      .constraint ⟨⟨sixfold, sixfold⟩, sixfold, some ⟨.str "Overflow", .null⟩⟩] := rfl
  unfold Statement.Proper
  rw [flat, List.forall_mem_cons, List.forall_mem_singleton]
  refine ⟨⟨trivial, fun g member => ?_⟩, trivial⟩
  obtain rfl := List.mem_singleton.1 member
  trivial

theorem writable_nestedProgram : nestedProgram.Writable where
  parameters := by
    have small : Decimal.isWritable (1 : Nat) = true :=
      Decimal.isWritable_of_lt (by decide : 1 < 10 ^ 1) (by decide)
    exact List.forall_mem_cons.2 ⟨small, List.forall_mem_singleton.2 small⟩
  statements := by
    refine Statement.forall_mem_flattenAll_cons.2 ⟨writable_nestedBlock, ?_⟩
    refine Statement.forall_mem_flattenAll_cons.2 ⟨?_, fun t member => absurd member List.not_mem_nil⟩
    rw [Statement.forall_mem_flatten rfl]
    refine ⟨List.forall_mem_singleton.2 ⟨writable_sixfold, writable_sixfold⟩, ?_, rfl⟩
    exact List.forall_mem_cons.2 ⟨Decimal.isWritable_of_lt (by decide : 2 < 10 ^ 1) (by decide),
      List.forall_mem_singleton.2 (Decimal.isWritable_of_lt (by decide : 0 < 10 ^ 1) (by decide))⟩

theorem proper_nestedProgram : nestedProgram.Proper := by
  refine Statement.forall_mem_flattenAll_cons.2 ⟨proper_nestedBlock, ?_⟩
  refine Statement.forall_mem_flattenAll_cons.2 ⟨?_, fun t member => absurd member List.not_mem_nil⟩
  rw [Statement.forall_mem_flatten rfl]
  exact ⟨trivial, trivial, trivial⟩

/-- The scalars have room for a coefficient six, and the residues modulo five do not. -/
theorem decode_encode_faithful_nested :
    (∃ q, Program.decode Field.scalars nestedProgram.encode = .ok q ∧ q.same nestedProgram = true ∧
      q.tags = nestedProgram.tags ∧ q.encode = nestedProgram.encode) ∧
    (∃ x ∈ nestedProgram.coefficients, 5 ≤ x.value ∧
      Program.decode Field.five nestedProgram.encode = .error (.outsideField x.text)) ∧
    (∃ t, Statement.decode Field.scalars nestedBlock.encode = .ok t ∧ t.same nestedBlock = true ∧
      t.tags = nestedBlock.tags ∧ t.encode = nestedBlock.encode) ∧
    ∃ x ∈ nestedBlock.coefficients, 5 ≤ x.value ∧
      Statement.decode Field.five nestedBlock.encode = .error (.outsideField x.text) := by
  have wide := decode_encode_faithful Field.scalars
  have narrow := decode_encode_faithful Field.five
  refine ⟨?_, ?_, ?_, ?_⟩
  · exact (wide.2 nestedProgram writable_nestedProgram proper_nestedProgram).1 (by decide)
  · exact (narrow.2 nestedProgram writable_nestedProgram proper_nestedProgram).2 (by decide)
  · exact (wide.1 nestedBlock writable_nestedBlock proper_nestedBlock).1 (by decide)
  · exact (narrow.1 nestedBlock writable_nestedBlock proper_nestedBlock).2 (by decide)

end Circuit

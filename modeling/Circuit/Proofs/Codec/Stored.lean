import Circuit.Codec.Decode
import Circuit.Codec.Encode

/-!
# How a stored circuit is read

The readers look for fields and accept many shapes. Of what the writers produce they read each part in
turn, and nothing else.

* `Program.decode_encode_eq`, `Statement.decodeItems_encodeAll_cons` and the lemmas of the same kind say
  which parts are read, in which order.
* `decodeEach_map_ok` reads back a row whose members are read back.
-/

namespace Circuit

/-! ### Rows -/

section Rows

variable {α : Type} {decode : Json → Except Fault α} {encode : α → Json}

theorem decodeEach_map_cons (a : α) (rest : List α) :
    decodeEach decode ((a :: rest).map encode) = (do
      let x ← decode (encode a)
      (decodeEach decode (rest.map encode)).map (x :: ·)) := by
  rw [List.map_cons, decodeEach]
  cases decode (encode a) <;> rfl

/-- A row is read back when each of its members is. -/
theorem decodeEach_map_ok {as : List α} (each : ∀ a ∈ as, decode (encode a) = .ok a) :
    decodeEach decode (as.map encode) = .ok as := by
  induction as with
  | nil => rfl
  | cons a rest ih =>
      obtain ⟨first, others⟩ := List.forall_mem_cons.1 each
      rw [List.map_cons, decodeEach, first, ih others]
      rfl

/-- A row of JSON values is read as it is. -/
theorem decodeEach_ok (data : List Json) : decodeEach .ok data = .ok data := by
  induction data with
  | nil => rfl
  | cons x rest ih =>
      rw [decodeEach, ih]
      rfl

end Rows

/-! ### Parts -/

namespace Log

def encodeGroup (g : Json × List LinComb) : Json := .arr [g.1, .arr (g.2.map LinComb.encode)]

theorem encode_eq (l : Log) :
    l.encode = .obj [("type", .str "log"), ("format", l.format),
      ("expressions", .arr (l.groups.map encodeGroup))] := rfl

end Log

section Parts

variable (F : Field)

theorem Term.decode_encode_eq (t : Term) :
    Term.decode F t.encode = (do
      let v ← Variable.decode t.var.encode
      let x ← F.read t.coeff.encode
      return ⟨v, x⟩) := rfl

theorem LinComb.decode_encode_eq (a : LinComb) :
    LinComb.decode F a.encode =
      (decodeEach (Term.decode F) (a.terms.map Term.encode)).map LinComb.mk := rfl

theorem QuadComb.decode_encode_eq (q : QuadComb) :
    QuadComb.decode F q.encode = (do
      let left ← LinComb.decode F q.left.encode
      let right ← LinComb.decode F q.right.encode
      return ⟨left, right⟩) := rfl

theorem ErrorTag.decode_encode (tag : Option ErrorTag) :
    ErrorTag.decode (ErrorTag.encode tag) = .ok tag := by
  cases tag <;> rfl

theorem Constraint.decode_encode_eq (c : Constraint) :
    Statement.decode F c.encode = ((do
      let quad ← QuadComb.decode F c.quad.encode
      let lin ← LinComb.decode F c.lin.encode
      return ⟨quad, lin, c.tag⟩ : Except Fault Constraint)).map .constraint := by
  have step : Statement.decode F c.encode = ((do
      let quad ← QuadComb.decode F c.quad.encode
      let lin ← LinComb.decode F c.lin.encode
      let tag ← ErrorTag.decode (ErrorTag.encode c.tag)
      return ⟨quad, lin, tag⟩ : Except Fault Constraint)).map .constraint := rfl
  rw [step, ErrorTag.decode_encode]
  rfl

theorem Directive.decode_encode_eq (d : Directive) :
    Statement.decode F d.encode = ((do
      let inputs ← decodeEach (QuadComb.decode F) (d.inputs.map QuadComb.encode)
      let outputs ← decodeEach Variable.decode (d.outputs.map Variable.encode)
      Directive.make inputs outputs d.solver : Except Fault Directive)).map .directive := by
  have step : Statement.decode F d.encode = ((do
      let inputs ← decodeEach (QuadComb.decode F) (d.inputs.map QuadComb.encode)
      let outputs ← decodeEach Variable.decode (d.outputs.map Variable.encode)
      let parameters ← decodeEach .ok d.solver.parameters
      Directive.make inputs outputs ⟨d.solver.name, parameters⟩ : Except Fault Directive)).map
        .directive := rfl
  rw [step, decodeEach_ok]
  rfl

theorem Log.decodeGroup_encodeGroup_eq (g : Json × List LinComb) :
    Log.decodeGroup F (Log.encodeGroup g) = (do
      let combs ← decodeEach (LinComb.decode F) (g.2.map LinComb.encode)
      return (g.1, combs)) := rfl

theorem Log.decode_encode_eq (l : Log) :
    Statement.decode F l.encode = ((do
      let groups ← decodeEach (Log.decodeGroup F) (l.groups.map Log.encodeGroup)
      return ⟨l.format, groups⟩ : Except Fault Log)).map .log := rfl

namespace Statement

theorem decode_encode_block (body : List Statement) :
    decode F (encode (.block body)) = (decodeItems F (encodeAll body)).map .block := rfl

/-- Two loops over a row of statements, in the mutual recursion and outside of it. -/
theorem encodeAll_eq_map (ss : List Statement) : encodeAll ss = ss.map encode := by
  induction ss with
  | nil => rfl
  | cons s rest ih => rw [encodeAll, ih, List.map_cons]

theorem decodeItems_encodeAll_cons (s : Statement) (rest : List Statement) :
    decodeItems F (encodeAll (s :: rest)) = (do
      let t ← decode F s.encode
      (decodeItems F (encodeAll rest)).map (t :: ·)) := by
  rw [encodeAll, decodeItems]
  cases decode F s.encode <;> rfl

end Statement

theorem Parameter.decode_encode_eq (q : Parameter) :
    Parameter.decode q.encode = (do
      let id ← Variable.decode q.id.encode
      return ⟨id, q.isPrivate⟩) := rfl

/-- The count is given back as it was given, a truth value as a truth value. -/
theorem ReturnCount.decode_toJson (n : ReturnCount) : ReturnCount.decode n.toJson = .ok n := by
  cases n <;> rfl

/-- A stored program is read part by part, the count without a fault. -/
theorem Program.decode_encode_eq (p : Program) :
    Program.decode F p.encode = (do
      let parameters ← decodeEach Parameter.decode (p.interface.parameters.map Parameter.encode)
      let statements ← Statement.decodeItems F (Statement.encodeAll p.statements)
      return ⟨⟨parameters, p.interface.returnCount⟩, statements⟩) := by
  have step : Program.decode F p.encode = (do
      let count ← ReturnCount.decode p.interface.returnCount.toJson
      let parameters ← decodeEach Parameter.decode (p.interface.parameters.map Parameter.encode)
      let statements ← Statement.decodeItems F (Statement.encodeAll p.statements)
      return ⟨⟨parameters, count⟩, statements⟩) := rfl
  rw [step, ReturnCount.decode_toJson]
  rfl

end Parts

end Circuit

import Circuit.Codec.Decode
import Circuit.Proofs.Except
import Circuit.Proofs.Json.Equality

/-!
# From what a circuit is read

The readers accept many shapes, but each part of what they read was read from some part of the data.

* `exists_of_mem_decodeRow` and its like say it of rows, and `Term.parts_of_decode` to
  `Program.parts_of_decode` of everything else.
* `Statement.DecodeCases` are the cases of an induction over all that is read as statements.
-/

namespace Circuit

/-! ### Rows -/

/-- A loop over the value visits a member. -/
def Json.Visits (data x : Json) : Prop := ∃ items, data.items? = some items ∧ x ∈ items

section Rows

variable {α : Type} {decode : Json → Except Fault α}

/-- Each member of a row was read. -/
theorem exists_of_mem_decodeEach {data : List Json} {as : List α}
    (read : decodeEach decode data = .ok as) {a : α} (member : a ∈ as) :
    ∃ x ∈ data, decode x = .ok a := by
  induction data generalizing as with
  | nil =>
      cases read
      exact absurd member List.not_mem_nil
  | cons x rest ih =>
      rw [decodeEach] at read
      split at read
      · cases read
      next first first_read =>
        obtain ⟨others, others_read, rfl⟩ := Except.map_eq_ok.1 read
        rcases List.mem_cons.1 member with rfl | later
        · exact ⟨x, List.mem_cons_self, first_read⟩
        · obtain ⟨y, y_member, y_read⟩ := ih others_read later
          exact ⟨y, List.mem_cons_of_mem x y_member, y_read⟩

/-- A loop over the data meets what each member of the row was read from. -/
theorem exists_of_mem_decodeRow {data : Json} {as : List α} (read : decodeRow decode data = .ok as)
    {a : α} (member : a ∈ as) : ∃ x, data.Visits x ∧ decode x = .ok a := by
  obtain ⟨items, found, read⟩ := Except.bind_eq_ok.1 read
  obtain ⟨x, x_member, x_read⟩ := exists_of_mem_decodeEach read member
  unfold Json.items at found
  split at found
  next row row_found =>
    cases found
    exact ⟨x, ⟨_, row_found, x_member⟩, x_read⟩
  next => cases found

/-- The same of an optional field, which has no members when it is missing. -/
theorem exists_of_mem_decodeOptional {fields : List (Text × Json)} {key : String} {as : List α}
    (read : decodeOptional decode fields key = .ok as) {a : α} (member : a ∈ as) :
    ∃ data x, Json.field? fields key = some data ∧ data.Visits x ∧ decode x = .ok a := by
  unfold decodeOptional at read
  split at read
  · cases read
    exact absurd member List.not_mem_nil
  next data found =>
    obtain ⟨x, visited, x_read⟩ := exists_of_mem_decodeRow read member
    exact ⟨data, x, found, visited, x_read⟩

end Rows

/-! ### Parts -/

namespace Json

theorem eq_obj_of_expectObject {what : String} {data : Json} {fields : List (Text × Json)}
    (object : data.expectObject what = .ok fields) : data = .obj fields := by
  unfold expectObject at object
  split at object
  · rw [Except.ok.inj object]
  · cases object

theorem field?_of_require {fields : List (Text × Json)} {key : String} {x : Json}
    (found : require fields key = .ok x) : field? fields key = some x := by
  unfold require at found
  split at found
  next value there => rw [there, Except.ok.inj found]
  next => cases found

/-- The members of a pair are visited by a loop over it. -/
theorem visits_of_pair {data a b : Json} (read : data.pair = .ok (a, b)) : data.Visits a ∧ data.Visits b := by
  unfold pair at read
  split at read
  next x y found =>
    cases read
    exact ⟨⟨_, found, List.mem_cons_self⟩, ⟨_, found, List.mem_cons_of_mem _ List.mem_cons_self⟩⟩
  next => cases read
  next => cases read

end Json

section Parts

variable {F : Field} {data : Json} {fields : List (Text × Json)}

theorem Term.parts_of_decode {t : Term} (read : Term.decode F data = .ok t) :
    (∃ x, Variable.decode x = .ok t.var) ∧ ∃ x, F.read x = .ok t.coeff := by
  unfold Term.decode at read
  obtain ⟨⟨name, number⟩, -, read⟩ := Except.bind_eq_ok.1 read
  obtain ⟨v, v_read, read⟩ := Except.bind_eq_ok.1 read
  obtain ⟨x, x_read, read⟩ := Except.bind_eq_ok.1 read
  cases read
  exact ⟨⟨name, v_read⟩, number, x_read⟩

theorem LinComb.parts_of_decode {a : LinComb} (read : LinComb.decode F data = .ok a) :
    decodeRow (Term.decode F) data = .ok a.terms := by
  obtain ⟨terms, terms_read, rfl⟩ := Except.map_eq_ok.1 read
  exact terms_read

theorem QuadComb.parts_of_decode {q : QuadComb} (read : QuadComb.decode F data = .ok q) :
    (∃ x, LinComb.decode F x = .ok q.left) ∧ ∃ x, LinComb.decode F x = .ok q.right := by
  unfold QuadComb.decode at read
  obtain ⟨fields, -, read⟩ := Except.bind_eq_ok.1 read
  obtain ⟨left_data, -, read⟩ := Except.bind_eq_ok.1 read
  obtain ⟨left, left_read, read⟩ := Except.bind_eq_ok.1 read
  obtain ⟨right_data, -, read⟩ := Except.bind_eq_ok.1 read
  obtain ⟨right, right_read, read⟩ := Except.bind_eq_ok.1 read
  cases read
  exact ⟨⟨left_data, left_read⟩, right_data, right_read⟩

theorem Constraint.parts_of_decode {c : Constraint} (read : Constraint.decode F fields = .ok c) :
    (∃ x, QuadComb.decode F x = .ok c.quad) ∧ ∃ x, LinComb.decode F x = .ok c.lin := by
  unfold Constraint.decode at read
  obtain ⟨quad_data, -, read⟩ := Except.bind_eq_ok.1 read
  obtain ⟨quad, quad_read, read⟩ := Except.bind_eq_ok.1 read
  obtain ⟨lin_data, -, read⟩ := Except.bind_eq_ok.1 read
  obtain ⟨lin, lin_read, read⟩ := Except.bind_eq_ok.1 read
  obtain ⟨tag, -, read⟩ := Except.bind_eq_ok.1 read
  cases read
  exact ⟨⟨quad_data, quad_read⟩, lin_data, lin_read⟩

/-- A solver was read from the fields of an object: its name, and its parameters if they are there. -/
def Solver.ReadFrom (fields : List (Text × Json)) (s : Solver) : Prop :=
  Json.field? fields "name" = some s.name ∧ decodeOptional .ok fields "params" = .ok s.parameters

/-- Both rows of a directive and its solver were read, and suit each other in number. -/
theorem Directive.parts_of_decode {d : Directive} (read : Directive.decode F fields = .ok d) :
    (∃ x, decodeRow (QuadComb.decode F) x = .ok d.inputs) ∧
    (∃ x, decodeRow Variable.decode x = .ok d.outputs) ∧
    (∃ solver, Json.field? fields "solver" = some (.obj solver) ∧ d.solver.ReadFrom solver) ∧
    Directive.make d.inputs d.outputs d.solver = .ok d := by
  unfold Directive.decode at read
  obtain ⟨solver_data, solver_found, read⟩ := Except.bind_eq_ok.1 read
  obtain ⟨solver, object, read⟩ := Except.bind_eq_ok.1 read
  obtain ⟨inputs_data, -, read⟩ := Except.bind_eq_ok.1 read
  obtain ⟨inputs, inputs_read, read⟩ := Except.bind_eq_ok.1 read
  obtain ⟨outputs_data, -, read⟩ := Except.bind_eq_ok.1 read
  obtain ⟨outputs, outputs_read, read⟩ := Except.bind_eq_ok.1 read
  obtain ⟨name, name_found, read⟩ := Except.bind_eq_ok.1 read
  obtain ⟨parameters, parameters_read, made⟩ := Except.bind_eq_ok.1 read
  obtain ⟨-, -, rfl⟩ := Except.map_eq_ok.1 made
  obtain rfl := Json.eq_obj_of_expectObject object
  exact ⟨⟨inputs_data, inputs_read⟩, ⟨outputs_data, outputs_read⟩,
    ⟨solver, Json.field?_of_require solver_found, Json.field?_of_require name_found, parameters_read⟩, made⟩

theorem Log.parts_of_decodeGroup {g : Json × List LinComb} (read : Log.decodeGroup F data = .ok g) :
    data.Visits g.1 ∧ ∃ x, decodeRow (LinComb.decode F) x = .ok g.2 := by
  unfold Log.decodeGroup at read
  obtain ⟨⟨type, row⟩, pair, read⟩ := Except.bind_eq_ok.1 read
  obtain ⟨combs, combs_read, read⟩ := Except.bind_eq_ok.1 read
  cases read
  exact ⟨(Json.visits_of_pair pair).1, row, combs_read⟩

theorem Log.parts_of_decode {l : Log} (read : Log.decode F fields = .ok l) :
    Json.field? fields "format" = some l.format ∧
      decodeOptional (Log.decodeGroup F) fields "expressions" = .ok l.groups := by
  unfold Log.decode at read
  obtain ⟨format, format_found, read⟩ := Except.bind_eq_ok.1 read
  obtain ⟨groups, groups_read, read⟩ := Except.bind_eq_ok.1 read
  cases read
  exact ⟨Json.field?_of_require format_found, groups_read⟩

theorem Parameter.parts_of_decode {q : Parameter} (read : Parameter.decode data = .ok q) :
    ∃ x, Variable.decode x = .ok q.id := by
  unfold Parameter.decode at read
  obtain ⟨fields, -, read⟩ := Except.bind_eq_ok.1 read
  obtain ⟨name, -, read⟩ := Except.bind_eq_ok.1 read
  obtain ⟨id, id_read, read⟩ := Except.bind_eq_ok.1 read
  obtain ⟨isPrivate, -, read⟩ := Except.bind_eq_ok.1 read
  cases read
  exact ⟨name, id_read⟩

end Parts

/-! ### Statements -/

namespace Statement

/-- A row that is no array holds no statement. -/
theorem decodeAll_of_not_array {F : Field} {data : Json} (no_array : ∀ items, data ≠ .arr items)
    {ss : List Statement} (read : decodeAll F data = .ok ss) : ss = [] := by
  rw [decodeAll.eq_2 F data no_array] at read
  split at read
  · cases read
  · exact (Except.ok.inj read).symm
  · cases read

/-- The cases of an induction over all that is read as statements. `H` passes from a value to its parts, so
that it is known of each object that a statement is read from. -/
structure DecodeCases (F : Field) (H : Json → Prop) (P : Statement → Prop) : Prop where
  fields : ∀ {fields}, H (.obj fields) → ∀ f ∈ fields, H f.2
  items : ∀ {items}, H (.arr items) → ∀ x ∈ items, H x
  constraint : ∀ {fields c}, H (.obj fields) → Constraint.decode F fields = .ok c → P (.constraint c)
  directive : ∀ {fields d}, H (.obj fields) → Directive.decode F fields = .ok d → P (.directive d)
  log : ∀ {fields l}, H (.obj fields) → Log.decode F fields = .ok l → P (.log l)
  block : ∀ {body}, (∀ s ∈ body, P s) → P (.block body)

namespace DecodeCases

variable {F : Field} {H : Json → Prop} {P : Statement → Prop}

mutual

/-- Induction over a value that is read as a statement. -/
theorem decode (cases : DecodeCases F H P) :
    ∀ (data : Json) {s : Statement}, H data → Statement.decode F data = .ok s → P s
  | .obj fields, s, held, read => by
      rw [Statement.decode] at read
      split at read
      · obtain ⟨c, c_read, rfl⟩ := Except.map_eq_ok.1 read
        exact cases.constraint held c_read
      · obtain ⟨d, d_read, rfl⟩ := Except.map_eq_ok.1 read
        exact cases.directive held d_read
      · obtain ⟨l, l_read, rfl⟩ := Except.map_eq_ok.1 read
        exact cases.log held l_read
      · obtain ⟨body, body_read, rfl⟩ := Except.map_eq_ok.1 read
        exact cases.block (decodeBody cases fields (cases.fields held) body_read)
      · cases read
  | .null, _, _, read => by cases read
  | .bool _, _, _, read => by cases read
  | .int _, _, _, read => by cases read
  | .real _, _, _, read => by cases read
  | .str _, _, _, read => by cases read
  | .arr _, _, _, read => by cases read

/-- A block is read from the field of its statements; the recursion follows the fields up to that one. -/
theorem decodeBody (cases : DecodeCases F H P) :
    ∀ (fields : List (Text × Json)) {body : List Statement}, (∀ f ∈ fields, H f.2) →
      Statement.decodeBody F fields = .ok body → ∀ s ∈ body, P s
  | [], _, _, read => by cases read
  | (key, data) :: rest, body, held, read => by
      obtain ⟨first, others⟩ := List.forall_mem_cons.1 held
      rw [Statement.decodeBody] at read
      split at read
      · exact decodeAll cases data first read
      · exact decodeBody cases rest others read

/-- Induction over a value that is read as a row of statements. -/
theorem decodeAll (cases : DecodeCases F H P) :
    ∀ (data : Json) {ss : List Statement}, H data → Statement.decodeAll F data = .ok ss → ∀ s ∈ ss, P s
  | .arr items, ss, held, read => decodeItems cases items (cases.items held) read
  | .null, _, _, read => by cases read
  | .bool _, _, _, read => by cases read
  | .int _, _, _, read => by cases read
  | .real _, _, _, read => by cases read
  | .str _, ss, _, read => by
      obtain rfl := decodeAll_of_not_array (by simp) read
      exact fun s member => absurd member List.not_mem_nil
  | .obj _, ss, _, read => by
      obtain rfl := decodeAll_of_not_array (by simp) read
      exact fun s member => absurd member List.not_mem_nil

/-- Each item of an array is read as one statement. -/
theorem decodeItems (cases : DecodeCases F H P) :
    ∀ (items : List Json) {ss : List Statement}, (∀ x ∈ items, H x) →
      Statement.decodeItems F items = .ok ss → ∀ s ∈ ss, P s
  | [], ss, _, read => by
      cases read
      exact fun s member => absurd member List.not_mem_nil
  | x :: rest, ss, held, read => by
      obtain ⟨first, others⟩ := List.forall_mem_cons.1 held
      rw [Statement.decodeItems] at read
      split at read
      · cases read
      next s s_read =>
        obtain ⟨ss, ss_read, rfl⟩ := Except.map_eq_ok.1 read
        exact List.forall_mem_cons.2 ⟨decode cases x first s_read, decodeItems cases rest others ss_read⟩

end

end DecodeCases

end Statement

/-! ### Programs -/

namespace Program

variable {F : Field} {p : Program}

/-- Each part of a program that was read was read from a part of the object. -/
theorem parts_of_decode {data : Json} (read : Program.decode F data = .ok p) :
    ∃ fields, data = .obj fields ∧
      (∀ q ∈ p.interface.parameters, ∃ x, Parameter.decode x = .ok q) ∧
      (p.statements = [] ∨
        ∃ rows, Json.field? fields "statements" = some rows ∧
          Statement.decodeAll F rows = .ok p.statements) := by
  unfold Program.decode at read
  obtain ⟨fields, object, read⟩ := Except.bind_eq_ok.1 read
  obtain ⟨count, -, read⟩ := Except.bind_eq_ok.1 read
  obtain ⟨parameters, parameters_read, read⟩ := Except.bind_eq_ok.1 read
  have each : ∀ q ∈ parameters, ∃ x, Parameter.decode x = .ok q := by
    intro q member
    obtain ⟨_, x, -, -, x_read⟩ := exists_of_mem_decodeOptional parameters_read member
    exact ⟨x, x_read⟩
  refine ⟨fields, Json.eq_obj_of_expectObject object, ?_⟩
  split at read
  · cases read
    exact ⟨each, .inl rfl⟩
  next rows found =>
    obtain ⟨statements, statements_read, read⟩ := Except.bind_eq_ok.1 read
    cases read
    exact ⟨each, .inr ⟨rows, found, statements_read⟩⟩

/-- What holds of all that is read as a statement holds of the statements of a program. -/
theorem statements_of_decode {H : Json → Prop} {P : Statement → Prop}
    (cases : Statement.DecodeCases F H P) {data : Json} (held : H data)
    (read : Program.decode F data = .ok p) : ∀ s ∈ p.statements, P s := by
  obtain ⟨fields, rfl, -, none_there | ⟨rows, found, rows_read⟩⟩ := parts_of_decode read
  · rw [none_there]
    exact fun s member => absurd member List.not_mem_nil
  · exact cases.decodeAll rows (cases.fields held _ (Json.mem_of_field? found)) rows_read

end Program

end Circuit

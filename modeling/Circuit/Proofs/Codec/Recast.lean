import Circuit.Proofs.Codec.Stored
import Circuit.Proofs.Field.Text
import Circuit.Proofs.Statement.Equality

/-!
# Circuits in another field

A circuit is taken to a field by taking its coefficients there. Where the field has room for all of
them, the circuit stays equal to what it was and is written in the same way. Its tags are untouched
in any case.

* `Statement.coefficients` and `Program.coefficients` are the coefficients at every depth, in the
  order in which they are read.
* `Program.recast` takes a program to a field: `Program.recast_same`, `Program.encode_recast` and
  `Program.tags_recast`.
-/

namespace Circuit

namespace Term

/-- The term with its coefficient in `F`. -/
def recast (F : Field) (t : Term) : Term := ⟨t.var, t.coeff.recast F⟩

end Term

namespace LinComb

def recast (F : Field) (a : LinComb) : LinComb := ⟨a.terms.map (Term.recast F)⟩

def coefficients (a : LinComb) : List Element := a.terms.map (·.coeff)

end LinComb

namespace QuadComb

def recast (F : Field) (q : QuadComb) : QuadComb := ⟨q.left.recast F, q.right.recast F⟩

def coefficients (q : QuadComb) : List Element := q.left.coefficients ++ q.right.coefficients

end QuadComb

namespace Constraint

def recast (F : Field) (c : Constraint) : Constraint := ⟨c.quad.recast F, c.lin.recast F, c.tag⟩

def coefficients (c : Constraint) : List Element := c.quad.coefficients ++ c.lin.coefficients

end Constraint

namespace Directive

def recast (F : Field) (d : Directive) : Directive :=
  ⟨d.inputs.map (QuadComb.recast F), d.outputs, d.solver⟩

def coefficients (d : Directive) : List Element := d.inputs.flatMap QuadComb.coefficients

end Directive

namespace Log

/-- A group of combinations with their coefficients in `F`. -/
def recastGroup (F : Field) (g : Json × List LinComb) : Json × List LinComb :=
  (g.1, g.2.map (LinComb.recast F))

def recast (F : Field) (l : Log) : Log := ⟨l.format, l.groups.map (recastGroup F)⟩

def groupCoefficients (g : Json × List LinComb) : List Element := g.2.flatMap LinComb.coefficients

def coefficients (l : Log) : List Element := l.groups.flatMap groupCoefficients

end Log

namespace Statement

mutual

/-- The statement with all its coefficients in `F`. -/
def recast (F : Field) : Statement → Statement
  | .constraint c => .constraint (c.recast F)
  | .directive d => .directive (d.recast F)
  | .log l => .log (l.recast F)
  | .block body => .block (recastAll F body)

def recastAll (F : Field) : List Statement → List Statement
  | [] => []
  | s :: rest => recast F s :: recastAll F rest

end

def ownCoefficients : Statement → List Element
  | .constraint c => c.coefficients
  | .directive d => d.coefficients
  | .log l => l.coefficients
  | .block _ => []

/-- The coefficients of a statement at every depth. -/
def coefficients (s : Statement) : List Element := s.flatten.flatMap ownCoefficients

def coefficientsAll (ss : List Statement) : List Element := (flattenAll ss).flatMap ownCoefficients

theorem coefficientsAll_cons (s : Statement) (rest : List Statement) :
    coefficientsAll (s :: rest) = s.coefficients ++ coefficientsAll rest := by
  unfold coefficientsAll coefficients
  rw [flattenAll, List.flatMap_append]

theorem coefficients_block (body : List Statement) :
    coefficients (.block body) = coefficientsAll body := by
  unfold coefficientsAll coefficients
  rw [flatten]

/-- Outside of blocks there is no depth. -/
theorem coefficients_of_not_block {s : Statement} (single : s.isBlock = false) :
    s.coefficients = s.ownCoefficients := by
  unfold coefficients
  rw [flatten_of_not_block single, List.flatMap_singleton]

def tags (s : Statement) : List (Option ErrorTag) := (s.flatten.filterMap constraint?).map (·.tag)

end Statement

namespace Program

def recast (F : Field) (p : Program) : Program := ⟨p.interface, Statement.recastAll F p.statements⟩

/-- The coefficients of a program at every depth. -/
def coefficients (p : Program) : List Element := Statement.coefficientsAll p.statements

def tags (p : Program) : List (Option ErrorTag) := p.clean.constraints.map (·.tag)

end Program

/-! ### Tags -/

namespace Statement

/-- Taking coefficients to a field leaves the kinds of statements alone. -/
theorem constraint?_recast (F : Field) (s : Statement) :
    (s.recast F).constraint? = s.constraint?.map (Constraint.recast F) := by
  cases s <;> simp [recast, constraint?]

mutual

/-- Blocks are where they were. -/
theorem flatten_recast (F : Field) : ∀ s : Statement, (s.recast F).flatten = s.flatten.map (recast F)
  | .constraint c => by simp [recast, flatten]
  | .directive d => by simp [recast, flatten]
  | .log l => by simp [recast, flatten]
  | .block body => by
      rw [recast, flatten, flatten]
      exact flattenAll_recastAll F body

/-- Coefficients may be taken to a field before or after blocks are opened. -/
theorem flattenAll_recastAll (F : Field) : ∀ ss : List Statement,
    flattenAll (recastAll F ss) = (flattenAll ss).map (recast F)
  | [] => rfl
  | s :: rest => by
      rw [recastAll, flattenAll, flattenAll, List.map_append, flatten_recast F s,
        flattenAll_recastAll F rest]

end

theorem tags_map_recast (F : Field) (ss : List Statement) :
    ((ss.map (recast F)).filterMap constraint?).map (·.tag) =
      (ss.filterMap constraint?).map (·.tag) := by
  have own : ∀ s : Statement,
      ((s.recast F).constraint?).map (·.tag) = s.constraint?.map (·.tag) := by
    intro s
    rw [constraint?_recast, Option.map_map]
    rfl
  rw [List.filterMap_map, List.map_filterMap, List.map_filterMap]
  exact congrArg (List.filterMap · ss) (funext own)

theorem tags_recast (F : Field) (s : Statement) : (s.recast F).tags = s.tags := by
  unfold tags
  rw [flatten_recast, tags_map_recast]

end Statement

theorem Program.tags_recast (F : Field) (p : Program) : (p.recast F).tags = p.tags := by
  unfold tags clean constraints recast
  rw [Statement.flattenAll_recastAll, Statement.tags_map_recast]

/-! ### Equality and writing -/

section Fitting

variable {F : Field}

/-- A field has room for all of the given elements. -/
def Field.HasRoom (F : Field) (xs : List Element) : Prop := ∀ x ∈ xs, x.value < F.modulus

instance (F : Field) (xs : List Element) : Decidable (F.HasRoom xs) :=
  inferInstanceAs (Decidable (∀ x ∈ xs, _))

theorem Field.hasRoom_append {xs ys : List Element} :
    F.HasRoom (xs ++ ys) ↔ F.HasRoom xs ∧ F.HasRoom ys :=
  List.forall_mem_append

theorem Field.hasRoom_flatMap {α : Type} {as : List α} {f : α → List Element} :
    F.HasRoom (as.flatMap f) ↔ ∀ a ∈ as, F.HasRoom (f a) :=
  List.forall_mem_flatMap

namespace Term

/-- The integer of a coefficient is kept where the field has room for it. -/
theorem key_recast {t : Term} (fits : t.coeff.value < F.modulus) : (t.recast F).key = t.key :=
  congrArg (t.var, ·) (Element.value_recast fits)

theorem encode_recast {t : Term} (fits : t.coeff.value < F.modulus) :
    (t.recast F).encode = t.encode := by
  have value : (t.recast F).coeff.value = t.coeff.value := Element.value_recast fits
  simp only [encode, Element.encode, Element.text, value]
  rfl

end Term

namespace LinComb

theorem key_recast {a : LinComb} (fits : F.HasRoom a.coefficients) : (a.recast F).key = a.key := by
  unfold key recast
  rw [List.map_map]
  exact List.map_congr_left fun t member => Term.key_recast (fits _ (List.mem_map_of_mem member))

theorem recast_same {a : LinComb} (fits : F.HasRoom a.coefficients) : (a.recast F).same a = true := by
  simp [same, key_recast fits]

theorem encode_recast {a : LinComb} (fits : F.HasRoom a.coefficients) :
    (a.recast F).encode = a.encode := by
  unfold encode recast
  rw [List.map_map]
  refine congrArg Json.arr (List.map_congr_left fun t member => ?_)
  exact Term.encode_recast (fits _ (List.mem_map_of_mem member))

end LinComb

namespace QuadComb

theorem recast_same {q : QuadComb} (fits : F.HasRoom q.coefficients) : (q.recast F).same q = true := by
  obtain ⟨left, right⟩ := Field.hasRoom_append.1 fits
  rw [same, Bool.and_eq_true]
  exact ⟨LinComb.recast_same left, LinComb.recast_same right⟩

theorem encode_recast {q : QuadComb} (fits : F.HasRoom q.coefficients) :
    (q.recast F).encode = q.encode := by
  obtain ⟨left, right⟩ := Field.hasRoom_append.1 fits
  simp only [encode, recast, LinComb.encode_recast left, LinComb.encode_recast right]

theorem recast_sameAll {qs : List QuadComb} (fits : F.HasRoom (qs.flatMap coefficients)) :
    sameAll (qs.map (recast F)) qs = true := by
  induction qs with
  | nil => rfl
  | cons q rest ih =>
      rw [List.flatMap_cons] at fits
      obtain ⟨first, others⟩ := Field.hasRoom_append.1 fits
      rw [List.map_cons, sameAll, Bool.and_eq_true]
      exact ⟨recast_same first, ih others⟩

end QuadComb

namespace Constraint

theorem recast_same {c : Constraint} (fits : F.HasRoom c.coefficients) :
    (c.recast F).same c = true := by
  obtain ⟨quad, lin⟩ := Field.hasRoom_append.1 fits
  rw [same, Bool.and_eq_true]
  exact ⟨QuadComb.recast_same quad, LinComb.recast_same lin⟩

theorem encode_recast {c : Constraint} (fits : F.HasRoom c.coefficients) :
    (c.recast F).encode = c.encode := by
  obtain ⟨quad, lin⟩ := Field.hasRoom_append.1 fits
  simp only [encode, recast, QuadComb.encode_recast quad, LinComb.encode_recast lin]

end Constraint

namespace Directive

theorem recast_same {d : Directive} (fits : F.HasRoom d.coefficients) (name : d.solver.name.Proper)
    (parameters : Json.AllProper d.solver.parameters) : (d.recast F).same d = true := by
  have solver : d.solver.same d.solver = true := by
    rw [Solver.same, Json.same_self _ name, Json.sameItems_self _ parameters]
    rfl
  have inputs := QuadComb.recast_sameAll fits
  simp [same, recast, inputs, solver]

theorem encode_recast {d : Directive} (fits : F.HasRoom d.coefficients) :
    (d.recast F).encode = d.encode := by
  have inputs : (d.inputs.map (QuadComb.recast F)).map QuadComb.encode =
      d.inputs.map QuadComb.encode := by
    rw [List.map_map]
    exact List.map_congr_left fun q member =>
      QuadComb.encode_recast (Field.hasRoom_flatMap.1 fits q member)
  simp only [encode, recast, inputs]

end Directive

namespace Log

theorem recast_sameGroups {groups : List (Json × List LinComb)}
    (fits : F.HasRoom (groups.flatMap groupCoefficients)) (names : ∀ g ∈ groups, g.1.Proper) :
    sameGroups (groups.map (recastGroup F)) groups = true := by
  induction groups with
  | nil => rfl
  | cons g rest ih =>
      rw [List.flatMap_cons] at fits
      obtain ⟨first, others⟩ := Field.hasRoom_append.1 fits
      obtain ⟨name, other_names⟩ := List.forall_mem_cons.1 names
      have keys : (g.2.map (LinComb.recast F)).map LinComb.key = g.2.map LinComb.key := by
        rw [List.map_map]
        exact List.map_congr_left fun a member =>
          LinComb.key_recast (Field.hasRoom_flatMap.1 first a member)
      have type_same : (recastGroup F g).1.same g.1 = true := Json.same_self g.1 name
      rw [List.map_cons, sameGroups, type_same, ih others other_names]
      simp [recastGroup, keys]

theorem recast_same {l : Log} (fits : F.HasRoom l.coefficients) (format : l.format.Proper)
    (names : ∀ g ∈ l.groups, g.1.Proper) : (l.recast F).same l = true := by
  have format_same : (l.recast F).format.same l.format = true := Json.same_self l.format format
  rw [same, format_same]
  exact recast_sameGroups fits names

theorem encode_recast {l : Log} (fits : F.HasRoom l.coefficients) : (l.recast F).encode = l.encode := by
  have combs : ∀ g ∈ l.groups,
      (g.2.map (LinComb.recast F)).map LinComb.encode = g.2.map LinComb.encode := by
    intro g g_member
    rw [List.map_map]
    exact List.map_congr_left fun a member =>
      LinComb.encode_recast (Field.hasRoom_flatMap.1 (Field.hasRoom_flatMap.1 fits g g_member) a member)
  have groups : (l.groups.map (recastGroup F)).map encodeGroup = l.groups.map encodeGroup := by
    rw [List.map_map]
    refine List.map_congr_left fun g g_member => ?_
    simp only [Function.comp_apply, encodeGroup, recastGroup, combs g g_member]
  rw [encode_eq, encode_eq]
  simp only [recast, groups]

end Log

namespace Statement

mutual

-- The induction is on the nesting of blocks. What is assumed of a block is assumed of the statements
-- outside of blocks that it holds, so that it passes to the row inside as it is.
/-- Equality looks at the integers of coefficients only, and at names and texts that equal themselves. -/
theorem recast_same : ∀ s : Statement, F.HasRoom s.coefficients → (∀ t ∈ s.flatten, t.OwnProper) →
    (s.recast F).same s = true
  | .constraint c, fits, _ => by
      rw [coefficients_of_not_block rfl] at fits
      rw [recast, same]
      exact Constraint.recast_same fits
  | .directive d, fits, proper => by
      rw [coefficients_of_not_block rfl] at fits
      rw [forall_mem_flatten rfl] at proper
      rw [recast, same]
      exact Directive.recast_same fits proper.1 proper.2
  | .log l, fits, proper => by
      rw [coefficients_of_not_block rfl] at fits
      rw [forall_mem_flatten rfl] at proper
      rw [recast, same]
      exact Log.recast_same fits proper.1 proper.2
  | .block body, fits, proper => by
      rw [coefficients_block] at fits
      rw [flatten] at proper
      rw [recast, same]
      exact recastAll_sameAll body fits proper

theorem recastAll_sameAll : ∀ ss : List Statement, F.HasRoom (coefficientsAll ss) →
    (∀ t ∈ flattenAll ss, t.OwnProper) → sameAll (recastAll F ss) ss = true
  | [], _, _ => rfl
  | s :: rest, fits, proper => by
      rw [coefficientsAll_cons, Field.hasRoom_append] at fits
      rw [forall_mem_flattenAll_cons] at proper
      rw [recastAll, sameAll, Bool.and_eq_true]
      exact ⟨recast_same s fits.1 proper.1, recastAll_sameAll rest fits.2 proper.2⟩

end

mutual

/-- What is written of a coefficient is its integer. -/
theorem encode_recast : ∀ s : Statement, F.HasRoom s.coefficients → (s.recast F).encode = s.encode
  | .constraint c, fits => by
      rw [coefficients_of_not_block rfl] at fits
      rw [recast, encode, encode, Constraint.encode_recast fits]
  | .directive d, fits => by
      rw [coefficients_of_not_block rfl] at fits
      rw [recast, encode, encode, Directive.encode_recast fits]
  | .log l, fits => by
      rw [coefficients_of_not_block rfl] at fits
      rw [recast, encode, encode, Log.encode_recast fits]
  | .block body, fits => by
      rw [coefficients_block] at fits
      rw [recast, encode, encode, encodeAll_recastAll body fits]

theorem encodeAll_recastAll : ∀ ss : List Statement, F.HasRoom (coefficientsAll ss) →
    encodeAll (recastAll F ss) = encodeAll ss
  | [], _ => rfl
  | s :: rest, fits => by
      rw [coefficientsAll_cons, Field.hasRoom_append] at fits
      rw [recastAll, encodeAll, encodeAll, encode_recast s fits.1, encodeAll_recastAll rest fits.2]

end

end Statement

namespace Program

/-- A program equals what it is in a field that has room for its coefficients. -/
theorem recast_same {p : Program} (fits : F.HasRoom p.coefficients)
    (proper : ∀ t ∈ p.clean.statements, t.OwnProper) : (p.recast F).same p = true := by
  have interface_same : p.interface.same p.interface = true := by simp [Interface.same]
  rw [same, Bool.and_eq_true]
  exact ⟨interface_same, Statement.recastAll_sameAll p.statements fits proper⟩

theorem encode_recast {p : Program} (fits : F.HasRoom p.coefficients) :
    (p.recast F).encode = p.encode := by
  unfold encode recast
  rw [Statement.encodeAll_recastAll p.statements fits]

end Program

end Fitting

end Circuit

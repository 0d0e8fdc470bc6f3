import Circuit.Program.Basic
import Circuit.Proofs.Except
import Circuit.Proofs.Statement.Flatten

/-!
# Which circuits have a text

A solver without parameters is shown as its name, and a tag without a message as its kind. Either has to
be a text then; nothing else stands between a circuit and its text.

* `Solver.Shown` and `ErrorTag.Shown` are the conditions; `Program.Shown` asks for them at every depth.
* `Program.exists_text_iff`: a program has a text exactly if it is shown.
-/

namespace Circuit

/-- The name of a solver is a text, or it has parameters to be shown with. -/
def Solver.Shown (s : Solver) : Prop := s.parameters = [] → ∃ name, s.name = .str name

/-- The kind of a tag is a text, or it has a message to be shown with. -/
def ErrorTag.Shown (e : ErrorTag) : Prop := e.message = .null → ∃ kind, e.kind = .str kind

theorem Solver.exists_text_iff (s : Solver) : (∃ text, s.text = .ok text) ↔ s.Shown := by
  obtain ⟨name, parameters⟩ := s
  cases parameters <;> cases name <;> simp [Solver.text, Shown]

theorem ErrorTag.exists_text_iff (e : ErrorTag) : (∃ text, e.text = .ok text) ↔ e.Shown := by
  obtain ⟨kind, message⟩ := e
  cases message <;> cases kind <;> simp [ErrorTag.text, Shown]

namespace Statement

/-- What has to be a text in a statement outside of blocks is one. -/
def OwnShown : Statement → Prop
  | .constraint c => ∀ tag ∈ c.tag, tag.Shown
  | .directive d => d.solver.Shown
  | _ => True

theorem exists_text_constraint (c : Constraint) :
    (∃ text, c.text = .ok text) ↔ ∀ tag ∈ c.tag, tag.Shown := by
  unfold Constraint.text
  cases tag : c.tag with
  | none => simp
  | some e =>
      simp only [Except.exists_map_eq_ok, ErrorTag.exists_text_iff, Option.mem_some_iff,
        forall_eq']

mutual

/-- A statement has a text if all statements in it, outside of blocks, have what it takes. -/
theorem exists_text_iff : ∀ s : Statement,
    (∃ line, s.text = .ok line) ↔ ∀ t ∈ s.flatten, t.OwnShown
  | .constraint c => by
      rw [forall_mem_flatten rfl, text]
      exact exists_text_constraint c
  | .directive d => by
      rw [forall_mem_flatten rfl, text, Directive.text, Except.exists_map_eq_ok]
      exact d.solver.exists_text_iff
  | .log l => by
      rw [forall_mem_flatten rfl, text]
      exact iff_of_true ⟨l.text, rfl⟩ trivial
  | .block body => by
      rw [flatten, text, ← exists_texts_iff body]
      cases texts body <;> simp

/-- A row of statements has a text exactly if each statement outside of blocks has one. -/
theorem exists_texts_iff : ∀ ss : List Statement,
    (∃ lines, texts ss = .ok lines) ↔ ∀ t ∈ flattenAll ss, t.OwnShown
  | [] => iff_of_true ⟨[], rfl⟩ fun t member => absurd member List.not_mem_nil
  | s :: rest => by
      rw [forall_mem_flattenAll_cons, ← exists_text_iff s, ← exists_texts_iff rest, texts]
      cases s.text with
      | error fault => simp
      | ok line => cases texts rest <;> simp

end

end Statement

/-- What has to be a text in a program is one, at every depth. -/
def Program.Shown (p : Program) : Prop := ∀ t ∈ p.clean.statements, t.OwnShown

theorem Program.exists_text_iff (p : Program) : (∃ text, p.text = .ok text) ↔ p.Shown := by
  rw [Shown, clean, ← Statement.exists_texts_iff, text]
  cases Statement.texts p.statements <;> simp

end Circuit

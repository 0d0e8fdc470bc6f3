import Circuit.Program.Basic

/-!
# Statements outside of blocks

Taking statements out of their blocks leaves no block, and nothing is left to do a second time.

* `Statement.flattenAll_flattenAll` and `Program.clean_clean`.
* `Program.hasBlocks_clean` and `Program.clean_eq_self`: no block is left, and without one nothing happens.
* `Program.constraints_subset_clean`: no constraint of the top level is lost.
-/

namespace Circuit

namespace Statement

/-- What holds of a row of statements outside of blocks holds of the first and of the others. -/
theorem forall_mem_flattenAll_cons {s : Statement} {rest : List Statement} {P : Statement → Prop} :
    (∀ t ∈ flattenAll (s :: rest), P t) ↔ (∀ t ∈ flatten s, P t) ∧ ∀ t ∈ flattenAll rest, P t := by
  rw [flattenAll, List.forall_mem_append]

/-- What holds of a row of statements outside of blocks holds of each of them. -/
theorem forall_mem_flattenAll {ss : List Statement} {P : Statement → Prop} :
    (∀ t ∈ flattenAll ss, P t) ↔ ∀ s ∈ ss, ∀ t ∈ flatten s, P t := by
  induction ss with
  | nil => simp [flattenAll]
  | cons s rest ih => rw [forall_mem_flattenAll_cons, ih, List.forall_mem_cons]

theorem flatten_of_not_block {s : Statement} (single : s.isBlock = false) : flatten s = [s] := by
  cases s with
  | block body => cases single
  | _ => rw [flatten]; exact fun _ => nofun

theorem forall_mem_flatten {s : Statement} (single : s.isBlock = false) {P : Statement → Prop} :
    (∀ t ∈ flatten s, P t) ↔ P s := by
  rw [flatten_of_not_block single, List.forall_mem_singleton]

/-- A row without blocks is left as it is. -/
theorem flattenAll_eq_self {ss : List Statement} (single : ∀ s ∈ ss, s.isBlock = false) :
    flattenAll ss = ss := by
  induction ss with
  | nil => rfl
  | cons s rest ih =>
      obtain ⟨first, others⟩ := List.forall_mem_cons.1 single
      rw [flattenAll, flatten_of_not_block first, ih others, List.singleton_append]

mutual

/-- No block is left, at any depth. -/
theorem not_block_of_mem_flatten : ∀ s : Statement, ∀ t ∈ flatten s, t.isBlock = false
  | .constraint c => by simp [flatten, isBlock]
  | .directive d => by simp [flatten, isBlock]
  | .log l => by simp [flatten, isBlock]
  | .block body => by
      rw [flatten]
      exact not_block_of_mem_flattenAll body

theorem not_block_of_mem_flattenAll : ∀ ss : List Statement, ∀ t ∈ flattenAll ss, t.isBlock = false
  | [] => by simp [flattenAll]
  | s :: rest =>
      forall_mem_flattenAll_cons.2 ⟨not_block_of_mem_flatten s, not_block_of_mem_flattenAll rest⟩

end

/-- A statement that is no block stays where blocks are taken apart. -/
theorem mem_flattenAll {s : Statement} (single : s.isBlock = false) {ss : List Statement}
    (member : s ∈ ss) : s ∈ flattenAll ss := by
  induction ss with
  | nil => exact absurd member List.not_mem_nil
  | cons t rest ih =>
      rw [flattenAll, List.mem_append]
      rcases List.mem_cons.1 member with rfl | later
      · left
        rw [flatten_of_not_block single]
        exact List.mem_singleton_self s
      · exact .inr (ih later)

/-- Taken out of their blocks once, statements stay as they are. -/
theorem flattenAll_flattenAll (ss : List Statement) : flattenAll (flattenAll ss) = flattenAll ss :=
  flattenAll_eq_self (not_block_of_mem_flattenAll ss)

end Statement

namespace Program

/-- Opening all blocks leaves nothing to open. -/
theorem clean_clean (p : Program) : p.clean.clean = p.clean := by
  unfold clean
  rw [Statement.flattenAll_flattenAll]

theorem hasBlocks_eq_false {p : Program} :
    p.hasBlocks = false ↔ ∀ s ∈ p.statements, s.isBlock = false := by
  simp [hasBlocks]

theorem hasBlocks_clean (p : Program) : p.clean.hasBlocks = false :=
  hasBlocks_eq_false.2 (Statement.not_block_of_mem_flattenAll p.statements)

/-- Without a block at the top level there is nothing to take apart. -/
theorem clean_eq_self {p : Program} (flat : p.hasBlocks = false) : p.clean = p := by
  unfold clean
  rw [Statement.flattenAll_eq_self (hasBlocks_eq_false.1 flat)]

/-- The constraints of the top level are still there when the blocks are gone. -/
theorem constraints_subset_clean (p : Program) : p.constraints ⊆ p.clean.constraints := by
  intro c member
  obtain ⟨s, s_member, found⟩ := List.mem_filterMap.1 member
  have single : s.isBlock = false := by
    cases s with
    | block body => cases found
    | _ => rfl
  exact List.mem_filterMap.2 ⟨s, Statement.mem_flattenAll single s_member, found⟩

end Program

end Circuit

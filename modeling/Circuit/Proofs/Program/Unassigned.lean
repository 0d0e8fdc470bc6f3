import Mathlib.Data.List.Nodup
import Mathlib.Data.String.Basic
import Circuit.Proofs.Program.PublicValues
import Circuit.Proofs.Variable.Text
import Circuit.Proofs.Witness.Lines
import Circuit.Store.Service

/-!
# Public variables without a value

A verifier is shown the values of a row of variables, in which one may stand twice. Those without a value are
looked for in that row without repetitions, and named in the order of their texts.

* `Interface.mem_distinctVariables_iff` and `Interface.ascending_distinctVariables`: nothing is lost without
  repetitions.
* `Program.mem_unassigned_iff` and `Program.nodup_unassigned` say which variables have no value.
* `Program.namesOfUnassigned` are their texts: `Program.mem_namesOfUnassigned_iff` and
  `Program.ascending_namesOfUnassigned`.
-/

namespace Circuit

namespace Interface

variable {u v : Variable} {vs : List Variable}

theorem mem_insertVariable_iff : u ∈ insertVariable v vs ↔ u = v ∨ u ∈ vs := by
  induction vs with
  | nil => simp [insertVariable]
  | cons d rest ih =>
    rw [insertVariable]
    split
    next same => simp [same]
    next =>
      split
      next => rw [List.mem_cons]
      next => simp only [List.mem_cons, ih, or_left_comm]

/-- An insertion keeps the order, as it adds nothing twice. -/
theorem ascending_insertVariable (ascending : vs.Pairwise fun a b => a.raw < b.raw) :
    (insertVariable v vs).Pairwise fun a b => a.raw < b.raw := by
  induction vs with
  | nil => exact List.pairwise_singleton _ _
  | cons d rest ih =>
    obtain ⟨above, later⟩ := List.pairwise_cons.1 ascending
    rw [insertVariable]
    split
    next => exact ascending
    next different =>
      split
      next before =>
        have before : v.raw < d.raw := of_decide_eq_true before
        exact List.pairwise_cons.2
          ⟨List.forall_mem_cons.2 ⟨before, fun a member => Int.lt_trans before (above a member)⟩, ascending⟩
      next after =>
        have unequal : v.raw ≠ d.raw := fun same => different (Variable.raw_inj.1 same)
        have after : ¬ v.raw < d.raw := fun less => after (decide_eq_true less)
        refine List.pairwise_cons.2 ⟨fun a member => ?_, ih later⟩
        rcases mem_insertVariable_iff.1 member with rfl | member
        · exact Int.lt_iff_le_and_ne.2 ⟨Int.not_lt.1 after, unequal.symm⟩
        · exact above a member

theorem mem_distinctVariables_iff : u ∈ distinctVariables vs ↔ u ∈ vs := by
  induction vs with
  | nil => exact Iff.rfl
  | cons v rest ih =>
    show u ∈ insertVariable v (distinctVariables rest) ↔ _
    rw [mem_insertVariable_iff, ih, List.mem_cons]

theorem ascending_distinctVariables (vs : List Variable) :
    (distinctVariables vs).Pairwise fun a b => a.raw < b.raw := by
  induction vs with
  | nil => exact .nil
  | cons v rest ih => exact ascending_insertVariable ih

/-- The variables whose values a verifier is shown. -/
def shown (i : Interface) : List Variable := i.publicParameters ++ i.returns

end Interface

namespace Program

variable {p : Program} {w : Witness} {v : Variable}

/-- What is missing is shown and has no value. -/
theorem mem_unassigned_iff : v ∈ p.unassigned w ↔ v ∈ p.interface.shown ∧ w.get? v = none := by
  unfold unassigned
  rw [List.mem_filter, Interface.mem_distinctVariables_iff, Bool.not_eq_true', Witness.contains_eq_false_iff]
  rfl

theorem nodup_unassigned (p : Program) (w : Witness) : (p.unassigned w).Nodup := by
  refine List.Nodup.filter _ ((Interface.ascending_distinctVariables _).imp ?_)
  rintro a _ less rfl
  exact Int.lt_irrefl _ less

theorem unassigned_eq_nil_iff : p.unassigned w = [] ↔ ∀ v ∈ p.interface.shown, ∃ x, w.get? v = some x := by
  simp only [List.eq_nil_iff_forall_not_mem, mem_unassigned_iff, not_and, ← ne_eq, Option.ne_none_iff_exists']

def namesOfUnassigned (p : Program) (w : Witness) : List String :=
  ((p.unassigned w).map Variable.text).mergeSort fun a b => decide (a ≤ b)

/-- The names that are reported, and no others. -/
theorem mem_namesOfUnassigned_iff {name : String} :
    name ∈ p.namesOfUnassigned w ↔ ∃ v ∈ p.interface.shown, w.get? v = none ∧ v.text = name := by
  simp only [namesOfUnassigned, List.mem_mergeSort, List.mem_map, mem_unassigned_iff, and_assoc]

/-- Texts in ascending order without repetitions. -/
theorem ascending_namesOfUnassigned (p : Program) (w : Witness) : (p.namesOfUnassigned w).Pairwise (· < ·) := by
  have sorted : (p.namesOfUnassigned w).Pairwise fun a b => decide (a ≤ b) = true :=
    List.pairwise_mergeSort (fun a b c => by simpa using le_trans) (fun a b => by simpa using le_total a b) _
  have nodup : (p.namesOfUnassigned w).Nodup := by
    rw [namesOfUnassigned, (List.mergeSort_perm _ _).nodup_iff]
    exact (p.nodup_unassigned w).map fun _ _ => Variable.text_inj.1
  exact (sorted.and nodup).imp fun ⟨le, ne⟩ => lt_of_le_of_ne (of_decide_eq_true le) ne

end Program

end Circuit

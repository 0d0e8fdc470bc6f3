import Mathlib.Data.List.Induction
import Circuit.Witness.Basic

/-!
# Witnesses as assignments

A witness is known by the values that it gives. Of a row of assignments, the last one for a variable counts.

* `Witness.mem_entries_iff`: the entries of a witness are the values that it gives.
* `Witness.ext_get?`: witnesses that give the same values are equal.
* `Witness.get?_ofList_eq_some_iff` tells the values that a row of assignments gives.
-/

namespace Circuit.Witness

theorem get?_empty (v : Variable) : empty.get? v = none := rfl

/-- The entries are exactly what a look-up finds, as no variable has two. -/
theorem mem_entries_iff {w : Witness} {v : Variable} {x : Int} : (v, x) ∈ w.entries ↔ w.get? v = some x := by
  obtain ⟨entries, ascending⟩ := w
  show (v, x) ∈ entries ↔ entries.lookup v = some x
  induction entries with
  | nil => simp
  | cons e rest ih =>
      obtain ⟨u, y⟩ := e
      obtain ⟨above, later⟩ := List.pairwise_cons.1 ascending
      by_cases same : v = u
      · subst same
        -- The variable has no second entry, which would have to be above itself.
        have absent : (v, x) ∉ rest := fun member => Int.lt_irrefl _ (above (v, x) member)
        simp [absent, eq_comm]
      · rw [List.mem_cons, ih later, List.lookup_cons, beq_false_of_ne same]
        simp [same]

theorem nodup_entries (w : Witness) : w.entries.Nodup := by
  refine List.Pairwise.imp ?_ w.ascending
  rintro d _ less rfl
  exact Int.lt_irrefl d.1.raw less

/-- Witnesses that give the same values are equal. -/
theorem ext_get? {w u : Witness} (same : ∀ v x, w.get? v = some x ↔ u.get? v = some x) : w = u := by
  have permuted : w.entries.Perm u.entries :=
    (List.perm_ext_iff_of_nodup w.nodup_entries u.nodup_entries).2 fun ⟨v, x⟩ =>
      mem_entries_iff.trans ((same v x).trans mem_entries_iff.symm)
  have equal : w.entries = u.entries :=
    permuted.eq_of_pairwise (fun _ _ _ _ less greater => absurd less (Int.lt_asymm greater))
      w.ascending u.ascending
  cases w
  cases u
  subst equal
  rfl

theorem ofList_concat (assignments : List (Variable × Int)) (a : Variable × Int) :
    ofList (assignments ++ [a]) = (ofList assignments).insert a.1 a.2 :=
  List.foldl_append

/-- The value of a variable is that of its last assignment. -/
theorem get?_ofList (assignments : List (Variable × Int)) (v : Variable) :
    (ofList assignments).get? v = assignments.reverse.lookup v := by
  induction assignments using List.reverseRecOn with
  | nil => rfl
  | append_singleton assignments a ih =>
      obtain ⟨u, x⟩ := a
      rw [ofList_concat, get?_insert, ih, List.reverse_concat, List.lookup_cons]
      by_cases same : v = u
      · simp [same]
      · simp [same, beq_false_of_ne same]

/-- The last assignment of a variable counts. -/
theorem get?_ofList_eq_some_iff {assignments : List (Variable × Int)} {v : Variable} {x : Int} :
    (ofList assignments).get? v = some x ↔
      ∃ before after, assignments = before ++ (v, x) :: after ∧ ∀ a ∈ after, a.1 ≠ v := by
  rw [get?_ofList, List.lookup_eq_some_iff]
  constructor
  · rintro ⟨after, before, split, others⟩
    refine ⟨before.reverse, after.reverse, by simpa using congrArg List.reverse split, fun a member => ?_⟩
    have different := others a (List.mem_reverse.1 member)
    exact fun same => by simp [same] at different
  · rintro ⟨before, after, rfl, others⟩
    refine ⟨after.reverse, before.reverse, by simp, fun a member => ?_⟩
    exact bne_iff_ne.2 (others a (List.mem_reverse.1 member)).symm

end Circuit.Witness

import Circuit.Proofs.Statement.Shown
import Circuit.Proofs.Store.Requests

/-!
# What a failing save leaves behind

A program is stored before its summary is made, and the summary holds its text. A program without a
text is stored, therefore, by a save that breaks off. All other saves that fail store nothing.

* `Store.keep_outcome`: how storing a program is answered.
* `Store.save_outcome` says of every body what becomes of the store, and which failing saves leave it
  as it was.
-/

namespace Circuit

theorem Program.exists_summary_iff (p : Program) (name : String) :
    (∃ body, p.summary name = .ok body) ↔ p.Shown := by
  rw [summary, Except.exists_map_eq_ok]
  exact p.exists_text_iff

namespace Store

variable (s : Store) (name : String) (p : Program) (status : Nat)

/-- A program is stored whether or not there is a summary to answer with. -/
theorem keep_outcome (success : status ≠ 500) :
    (s.keep name p status).1 = s.put name p.encode ∧
      ((s.keep name p status).2.status = status ↔ p.Shown) ∧
      (¬ p.Shown → (s.keep name p status).2 = .broken) := by
  refine ⟨rfl, ?_⟩
  rw [← p.exists_summary_iff name, keep]
  cases p.summary name with
  | ok body =>
      have told : ∃ b, (Except.ok body : Except Fault Json) = .ok b := ⟨body, rfl⟩
      exact ⟨iff_of_true rfl told, fun untold => absurd told untold⟩
  | error fault =>
      have untold : ¬ ∃ b, (Except.error fault : Except Fault Json) = .ok b := by
        rintro ⟨b, impossible⟩
        cases impossible
      exact ⟨iff_of_false success.symm untold, fun _ => rfl⟩

/-- The program is kept before its text is made; the answer then depends on the text. -/
theorem save_taken {body : Body} {p : Program} (taken : body.program? = some p) :
    (s.save name body).1 = s.put name p.encode ∧
      ((s.save name body).2.status = 201 ↔ p.Shown) ∧
      (¬ p.Shown → (s.save name body).2 = .broken) := by
  rw [save_of_program s name taken]
  exact s.keep_outcome name p 201 (by decide)

/-- Rows stay as they are if a name is given the value that it has, and in no other way. -/
theorem putRow_eq_self_iff (data : Json) (rows : List (String × Json)) :
    putRow name data rows = rows ↔ rows.lookup name = some data := by
  induction rows with
  | nil => simp [putRow]
  | cons row rest ih =>
      obtain ⟨key, value⟩ := row
      by_cases here : key = name
      · subst here
        simp [putRow, eq_comm]
      · have passed : (name == key) = false := beq_false_of_ne (Ne.symm here)
        simp only [putRow, if_neg here, List.cons.injEq, true_and, List.lookup_cons, passed]
        exact ih

/-- A store is not changed exactly if the same data are there before. -/
theorem put_eq_self_iff (data : Json) : s.put name data = s ↔ s.get? name = some data := by
  rw [get?, ← putRow_eq_self_iff, put]
  exact ⟨congrArg rows, congrArg Store.mk⟩

/-- A save stores the program that it takes, and is answered with the summary if there is one. A failure
leaves the store as it was unless the body holds a program without a text, other than the one that is
stored under the name already. -/
theorem save_outcome (body : Body) :
    let after := (s.handle (.save name body)).1
    let answer := (s.handle (.save name body)).2
    (body.program? = none → after = s ∧ (answer.status = 400 ∨ answer.status = 500)) ∧
    (∀ p, body.program? = some p → after = s.put name p.encode ∧
      (answer.status = 201 ↔ p.Shown) ∧ (¬ p.Shown → answer = .broken)) ∧
    ((answer.status ≠ 201 → after = s) ↔
      ∀ p, body.program? = some p → ¬ p.Shown → s.get? name = some p.encode) := by
  intro after answer
  cases taken : body.program? with
  | none =>
      have refused : after = s ∧ (answer.status = 400 ∨ answer.status = 500) :=
        save_of_refused s name taken
      refine ⟨fun _ => refused, nofun, ?_⟩
      exact iff_of_true (fun _ => refused.1) nofun
  | some p =>
      obtain ⟨stored, told, broken⟩ : after = s.put name p.encode ∧
          (answer.status = 201 ↔ p.Shown) ∧ (¬ p.Shown → answer = .broken) :=
        s.save_taken name taken
      refine ⟨nofun, ?_, ?_⟩
      · rintro _ ⟨⟩
        exact ⟨stored, told, broken⟩
      · calc
          (answer.status ≠ 201 → after = s) ↔ (¬ p.Shown → s.put name p.encode = s) :=
            imp_congr (not_congr told) (by rw [stored])
          _ ↔ (¬ p.Shown → s.get? name = some p.encode) :=
            imp_congr_right fun _ => s.put_eq_self_iff name p.encode
          _ ↔ ∀ q, some p = some q → ¬ q.Shown → s.get? name = some q.encode := by
            simp only [Option.some.injEq, forall_eq']

/-- The constraint that nothing equals nothing, under a tag of which the kind is a number. -/
def numberedTag : Program :=
  ⟨⟨[], .number 0⟩, [.constraint ⟨⟨⟨[]⟩, ⟨[]⟩⟩, ⟨[]⟩, some ⟨.int 5, .null⟩⟩]⟩

theorem program?_numberedTag : (Body.json numberedTag.encode).program? = some numberedTag := rfl

theorem not_shown_numberedTag : ¬ numberedTag.Shown := by
  intro shown
  obtain ⟨kind, equal⟩ := shown _ List.mem_cons_self _ rfl rfl
  cases equal

/-- Of two saves that break off, the one that says something new changes the store. -/
theorem save_outcome_numberedTag :
    (Store.empty.handle (.save "tag" (.json numberedTag.encode))).1 =
      Store.empty.put "tag" numberedTag.encode ∧
    (Store.empty.handle (.save "tag" (.json numberedTag.encode))).2 = .broken ∧
    ((Store.empty.put "tag" numberedTag.encode).handle (.save "tag" (.json numberedTag.encode))).1 =
      Store.empty.put "tag" numberedTag.encode := by
  obtain ⟨-, outcome, -⟩ := save_outcome Store.empty "tag" (.json numberedTag.encode)
  obtain ⟨stored, -, broken⟩ := outcome numberedTag program?_numberedTag
  obtain ⟨-, again, unchanged⟩ :=
    save_outcome (Store.empty.put "tag" numberedTag.encode) "tag" (.json numberedTag.encode)
  refine ⟨stored, broken not_shown_numberedTag, unchanged.2 ?_ ?_⟩
  · intro p other _
    cases program?_numberedTag.symm.trans other
    rfl
  · intro success
    exact not_shown_numberedTag ((again numberedTag program?_numberedTag).2.1.1 success)

/-- A program whose tag has no text is in the store after a save that broke off. -/
theorem save_breaks_off_stored :
    let after := (Store.empty.handle (.save "tag" (.json numberedTag.encode))).1
    let answer := (Store.empty.handle (.save "tag" (.json numberedTag.encode))).2
    answer.status = 500 ∧ after.names = ["tag"] ∧ after ≠ Store.empty := by
  intro after answer
  obtain ⟨stored, -, broken⟩ := Store.empty.save_taken "tag" program?_numberedTag
  have answered : answer = .broken := broken not_shown_numberedTag
  refine ⟨congrArg Response.status answered, ?_, fun unchanged => ?_⟩
  · show (Store.empty.save "tag" (.json numberedTag.encode)).1.names = ["tag"]
    rw [stored]
    exact List.mergeSort_singleton "tag"
  · have rows := congrArg Store.rows (stored.symm.trans unchanged)
    exact List.cons_ne_nil _ _ rows

end Store

end Circuit

import Circuit.Proofs.Store.Invariant

/-!
# What requests change

A request changes the row of its own name or nothing. A save changes it when the body holds a program
that is taken; a cleaning and a deletion change it when there is a program of their name.

* `Body.program?` is the program that a save takes: `Store.save_of_program`, `Store.save_of_refused`.
* `Store.Answered` says all that a request can do; `Store.answered_handle` finds what it did.
* `Store.remove_handle`: without the row of its name, a request leaves a store as it was.
* `Store.get?_handle`: only the requests that write a row change what is under its name.
* `Store.status_handle`: a request for a stored program is answered with 404 if there is none.
-/

namespace Circuit

/-- The program that a save takes from a body: one that is readable and has its public variables in
its public section. -/
def Body.program? (body : Body) : Option Program :=
  match body.fields? with
  | none => none
  | some fields =>
      match Program.decode Field.scalars (.obj fields) with
      | .error _ => none
      | .ok p =>
          match p.checkWires with
          | .error _ => none
          | .ok _ => some p

/-- The programs that a save takes over: those that can be read, and whose wires can be found. -/
theorem Body.program?_eq_some_iff {body : Body} {p : Program} :
    body.program? = some p ↔ ∃ fields, body.fields? = some fields ∧
      Program.decode Field.scalars (.obj fields) = .ok p ∧ ∃ sizing, p.checkWires = .ok sizing := by
  unfold program?
  constructor
  · intro taken
    split at taken
    · cases taken
    next fields object =>
      split at taken
      · cases taken
      next q read =>
        split at taken
        · cases taken
        next sizing found =>
          cases taken
          exact ⟨fields, object, read, sizing, found⟩
  · rintro ⟨fields, object, read, sizing, found⟩
    simp only [object, read, found]

theorem Body.storedAs_of_program? {body : Body} {p : Program} (taken : body.program? = some p) :
    p.StoredAs p.encode := by
  obtain ⟨fields, -, read, wires⟩ := program?_eq_some_iff.1 taken
  exact Program.storedAs_of_decode read wires

namespace Request

def name? : Request → Option String
  | .list => none
  | .save name _ => some name
  | .summary name => some name
  | .delete name => some name
  | .clean name => some name
  | .download name => some name
  | .check name _ => some name

/-- The name of the stored program without which a request cannot be carried out. -/
def target? : Request → Option String
  | .list => none
  | .save _ _ => none
  | .summary name => some name
  | .delete name => some name
  | .clean name => some name
  | .download name => some name
  | .check name _ => some name

/-- Whether a request may change the row of a name. -/
def Writes (name : String) : Request → Prop
  | .save other _ => other = name
  | .delete other => other = name
  | .clean other => other = name
  | _ => False

end Request

namespace Store

/-! ### Saving -/

variable (s : Store) (name : String)

theorem save_of_program {body : Body} {p : Program} (taken : body.program? = some p) :
    s.save name body = s.keep name p 201 := by
  obtain ⟨fields, object, read, sizing, found⟩ := Body.program?_eq_some_iff.1 taken
  unfold save
  simp only [object, read, found]

/-- A save that takes no program is answered with a refusal or breaks off, before anything is stored. -/
theorem save_of_refused {body : Body} (refused : body.program? = none) :
    (s.save name body).1 = s ∧
      ((s.save name body).2.status = 400 ∨ (s.save name body).2.status = 500) := by
  unfold save
  split
  · exact ⟨rfl, .inl rfl⟩
  next fields object =>
    split
    · exact ⟨rfl, .inr rfl⟩
    · exact ⟨rfl, .inl rfl⟩
    next p read =>
      split
      next sizing found =>
        have taken := Body.program?_eq_some_iff.2 ⟨fields, object, read, sizing, found⟩
        cases refused.symm.trans taken
      next fault found =>
        refine ⟨rfl, ?_⟩
        cases contradicts : fault.isInvariant
        · exact .inr rfl
        · exact .inl rfl

/-! ### Requests for a stored program -/

variable {s name} {respond : Program → Store × Response}

theorem isSome_of_load {result : Except Fault Program} (loaded : s.load name = some result) :
    (s.get? name).isSome = true := by
  obtain ⟨data, row, -⟩ := Option.map_eq_some_iff.1 loaded
  exact Option.isSome_of_eq_some row

theorem withProgram_of_load {p : Program} (loaded : s.load name = some (.ok p)) :
    s.withProgram name respond = respond p := by
  unfold withProgram
  rw [loaded]

/-! ### Answers that are not 404 -/

theorem status_ofOutcome (status : Nat) (outcome : Except Fault Json) :
    (Response.ofOutcome (.json status) outcome).status = status ∨
      (Response.ofOutcome (.json status) outcome).status = 500 := by
  cases outcome with
  | ok body => exact .inl rfl
  | error fault => exact .inr rfl

theorem ofOutcome_found (outcome : Except Fault Json) :
    (Response.ofOutcome (.json 200) outcome).status ≠ 404 := by
  rcases status_ofOutcome 200 outcome with ok | broken
  · exact ne_of_eq_of_ne ok (by decide)
  · exact ne_of_eq_of_ne broken (by decide)

theorem downloadResponse_found (name : String) (p : Program) :
    (downloadResponse name p).status ≠ 404 := by
  unfold downloadResponse
  split
  · exact (by decide : 409 ≠ 404)
  · split
    · dsimp only
      split
      · exact (by decide : 200 ≠ 404)
      · exact (by decide : 500 ≠ 404)
    · exact (by decide : 500 ≠ 404)

theorem check_found (p : Program) (w : Witness) : (p.check w).status ≠ 404 := by
  unfold Program.check
  split
  · exact (by decide : 400 ≠ 404)
  · split
    · exact (by decide : 400 ≠ 404)
    · exact (by decide : 500 ≠ 404)
    next failed evaluated => exact ofOutcome_found (p.report w failed)

theorem checkResponse_found (name : String) (body : Body) (p : Program) :
    (checkResponse name body p).status ≠ 404 := by
  unfold checkResponse
  split
  · exact (by decide : 409 ≠ 404)
  · split
    · exact (by decide : 400 ≠ 404)
    · split
      · exact (by decide : 500 ≠ 404)
      · exact (by decide : 400 ≠ 404)
      next w read => exact check_found p w

/-! ### All that a request can do -/

/-- The store and the answer that a request can lead to. -/
inductive Answered (s : Store) : Request → Store → Response → Prop
  | listed {answer : Response} : Answered s .list s answer
  | refused {name : String} {body : Body} {answer : Response} (refused : body.program? = none)
      (status : answer.status = 400 ∨ answer.status = 500) : Answered s (.save name body) s answer
  | saved {name : String} {body : Body} {p : Program} {answer : Response}
      (taken : body.program? = some p) :
      Answered s (.save name body) (s.put name p.encode) answer
  | unknown {request : Request} {name : String} (target : request.target? = some name)
      (unknown : s.get? name = none) : Answered s request s (Refusal.unknown name).response
  | unreadable {request : Request} {name : String} {fault : Fault}
      (target : request.target? = some name) (loaded : s.load name = some (.error fault)) :
      Answered s request s .broken
  | shown {request : Request} {name : String} {p : Program} {answer : Response}
      (target : request.target? = some name) (reads : ¬ request.Writes name)
      (loaded : s.load name = some (.ok p)) (found : answer.status ≠ 404) :
      Answered s request s answer
  | deleted {name : String} {p : Program} (loaded : s.load name = some (.ok p)) :
      Answered s (.delete name) (s.remove name) (.empty 204)
  | cleaned {name : String} {p : Program} {answer : Response}
      (loaded : s.load name = some (.ok p)) (found : answer.status ≠ 404) :
      Answered s (.clean name) (s.put name p.clean.encode) answer

theorem answered_withProgram {request : Request} (target : request.target? = some name)
    (each : ∀ p, s.load name = some (.ok p) → s.Answered request (respond p).1 (respond p).2) :
    s.Answered request (s.withProgram name respond).1 (s.withProgram name respond).2 := by
  unfold withProgram
  split
  next missing => exact .unknown target (Option.map_eq_none_iff.1 missing)
  next fault loaded => exact .unreadable target loaded
  next p loaded => exact each p loaded

/-- The cases of a request, told without the functions that answer it. -/
theorem answered_handle (s : Store) (request : Request) :
    s.Answered request (s.handle request).1 (s.handle request).2 := by
  cases request with
  | list => exact .listed
  | save name body =>
      show s.Answered _ (s.save name body).1 (s.save name body).2
      cases taken : body.program? with
      | none =>
          obtain ⟨unchanged, status⟩ := save_of_refused s name taken
          rw [unchanged]
          exact .refused taken status
      | some p =>
          rw [save_of_program s name taken]
          exact .saved taken
  | summary name =>
      exact answered_withProgram rfl fun p loaded => .shown rfl id loaded (ofOutcome_found _)
  | delete name => exact answered_withProgram rfl fun p loaded => .deleted loaded
  | clean name =>
      exact answered_withProgram rfl fun p loaded => .cleaned loaded (ofOutcome_found _)
  | download name =>
      exact answered_withProgram rfl fun p loaded =>
        .shown rfl id loaded (downloadResponse_found name p)
  | check name body =>
      exact answered_withProgram rfl fun p loaded =>
        .shown rfl id loaded (checkResponse_found name body p)

/-! ### Rows that stay as they are -/

theorem filter_putRow (name : String) (data : Json) (rows : List (String × Json)) :
    (putRow name data rows).filter (fun row => row.1 ≠ name) =
      rows.filter fun row => row.1 ≠ name := by
  induction rows with
  | nil => simp [putRow]
  | cons row rest ih =>
      by_cases here : row.1 = name
      · simp [putRow, here]
      · rw [putRow, if_neg here, List.filter_cons_of_pos (by simpa using here), ih,
          List.filter_cons_of_pos (by simpa using here)]

theorem remove_put (s : Store) (name : String) (data : Json) :
    (s.put name data).remove name = s.remove name :=
  congrArg Store.mk (filter_putRow name data s.rows)

theorem remove_remove (s : Store) (name : String) :
    (s.remove name).remove name = s.remove name := by
  simp [remove, List.filter_filter]

namespace Answered

variable {request : Request} {after : Store} {answer : Response}
  (answered : s.Answered request after answer)

include answered

/-- The rows of other names are left alone, in their order. -/
theorem remove_eq (named : request.name? = some name) : after.remove name = s.remove name := by
  cases answered with
  | saved taken =>
      cases named
      exact remove_put s name _
  | deleted loaded =>
      cases named
      exact remove_remove s name
  | cleaned loaded found =>
      cases named
      exact remove_put s name _
  | _ => rfl

theorem get?_eq (untouched : ¬ request.Writes name) : after.get? name = s.get? name := by
  cases answered with
  | saved taken => rw [get?_put, if_neg (Ne.symm untouched)]
  | deleted loaded => rw [get?_remove, if_neg (Ne.symm untouched)]
  | cleaned loaded found => rw [get?_put, if_neg (Ne.symm untouched)]
  | _ => rfl

/-- A request that needs a stored program answers 404 exactly if there is none. -/
theorem status_eq_iff (target : request.target? = some name) :
    answer.status = 404 ↔ s.get? name = none := by
  have present {result : Except Fault Program} (loaded : s.load name = some result) :
      s.get? name ≠ none :=
    Option.isSome_iff_ne_none.1 (isSome_of_load loaded)
  cases answered with
  | listed => cases target
  | refused refused status => cases target
  | saved taken => cases target
  | unknown own missing =>
      cases own.symm.trans target
      exact iff_of_true rfl missing
  | unreadable own loaded =>
      cases own.symm.trans target
      exact iff_of_false (by decide : 500 ≠ 404) (present loaded)
  | shown own reads loaded found =>
      cases own.symm.trans target
      exact iff_of_false found (present loaded)
  | deleted loaded =>
      cases target
      exact iff_of_false (by decide : 204 ≠ 404) (present loaded)
  | cleaned loaded found =>
      cases target
      exact iff_of_false found (present loaded)

end Answered

/-- A request leaves the rows of all names but its own as they were, in the order in which they were. -/
theorem remove_handle (s : Store) (request : Request) {name : String}
    (named : request.name? = some name) : (s.handle request).1.remove name = s.remove name :=
  (s.answered_handle request).remove_eq named

/-- A request that does not write the row of a name leaves what is under it. -/
theorem get?_handle (s : Store) (request : Request) {name : String}
    (untouched : ¬ request.Writes name) : (s.handle request).1.get? name = s.get? name :=
  (s.answered_handle request).get?_eq untouched

/-- A request for a stored program is answered with 404 exactly if there is none. -/
theorem status_handle (s : Store) (request : Request) {name : String}
    (target : request.target? = some name) :
    (s.handle request).2.status = 404 ↔ s.get? name = none :=
  (s.answered_handle request).status_eq_iff target

end Store

end Circuit

/-!
# Computations that can fail

How a computation that ended well was put together.

* `Except.bind_eq_ok` takes a row of steps apart, `Except.map_eq_ok` a change of the result;
  `Except.exists_map_eq_ok` says only that there is one.
* `Except.mapM_eq_ok_map` and `Except.exists_of_mapM_eq_error` are about the same step for each member of a row.
-/

namespace Except

variable {ε α β : Type}

theorem bind_eq_ok {x : Except ε α} {next : α → Except ε β} {b : β} :
    (x >>= next) = .ok b ↔ ∃ a, x = .ok a ∧ next a = .ok b := by
  cases x with
  | error e => exact ⟨fun h => (nomatch h), fun ⟨_, h, _⟩ => (nomatch h)⟩
  | ok a =>
    constructor
    · intro h
      exact ⟨a, rfl, h⟩
    · rintro ⟨a, h, ended⟩
      cases h
      exact ended

theorem map_eq_ok {x : Except ε α} {f : α → β} {b : β} :
    x.map f = .ok b ↔ ∃ a, x = .ok a ∧ f a = b := by
  cases x with
  | error e => exact ⟨fun h => (nomatch h), fun ⟨_, h, _⟩ => (nomatch h)⟩
  | ok a =>
    constructor
    · intro h
      exact ⟨a, rfl, Except.ok.inj h⟩
    · rintro ⟨a, h, rfl⟩
      cases h
      rfl

/-- A change of the result plays no part in whether there is one. -/
theorem exists_map_eq_ok {x : Except ε α} {f : α → β} :
    (∃ b, x.map f = .ok b) ↔ ∃ a, x = .ok a := by
  cases x with
  | error e => exact ⟨fun ⟨_, h⟩ => (nomatch h), fun ⟨_, h⟩ => (nomatch h)⟩
  | ok a => exact ⟨fun _ => ⟨a, rfl⟩, fun _ => ⟨f a, rfl⟩⟩

variable {f : α → Except ε β} {as : List α}

/-- A step that ends well for each member gives a row of results. -/
theorem mapM_eq_ok_map {g : α → β} (each : ∀ a ∈ as, f a = .ok (g a)) : as.mapM f = .ok (as.map g) := by
  induction as with
  | nil => rfl
  | cons a as ih =>
    rw [List.mapM_cons, each a List.mem_cons_self, ih fun b member => each b (List.mem_cons_of_mem a member)]
    rfl

/-- A failing row of steps fails as one of them does. -/
theorem exists_of_mapM_eq_error {e : ε} (failed : as.mapM f = .error e) : ∃ a ∈ as, f a = .error e := by
  induction as with
  | nil => cases failed
  | cons a as ih =>
    rw [List.mapM_cons] at failed
    cases first : f a with
    | error e' =>
      rw [first] at failed
      cases failed
      exact ⟨a, List.mem_cons_self, first⟩
    | ok b =>
      cases others : as.mapM f with
      | error e' =>
        rw [first, others] at failed
        cases failed
        obtain ⟨a', member, failed⟩ := ih others
        exact ⟨a', List.mem_cons_of_mem a member, failed⟩
      | ok bs =>
        rw [first, others] at failed
        cases failed

/-- In a row of steps that succeeds, each of them does. -/
theorem exists_of_mapM_eq_ok {bs : List β} (done : as.mapM f = .ok bs) : ∀ a ∈ as, ∃ b, f a = .ok b := by
  induction as generalizing bs with
  | nil => exact List.forall_mem_nil _
  | cons a as ih =>
    rw [List.mapM_cons] at done
    obtain ⟨b, first, done⟩ := bind_eq_ok.1 done
    obtain ⟨bs, others, -⟩ := bind_eq_ok.1 done
    exact List.forall_mem_cons.2 ⟨⟨b, first⟩, ih others⟩

end Except

import Circuit.Proofs.Store.Table

/-!
# The service as a map

What is stored after a row of requests is a map from names to programs. The names of the map are those
that are listed; a request for any other name is answered with 404.

* `Catalog.run` is the map that requests make; `Store.Represents` says that a store holds a map.
* `Request.effect?` is what a request did to a name, as its sender can tell.
* `Store.run_catalog` says of all requests to a store that was empty what is in its table and what is
  answered.
-/

namespace Circuit

/-! ### Maps from names to programs -/

/-- A map from names to programs. -/
def Catalog := String → Option Program

namespace Catalog

def empty : Catalog := fun _ => none

def set (c : Catalog) (name : String) (entry : Option Program) : Catalog :=
  fun other => if other = name then entry else c other

/-- The map after a request. -/
def step (c : Catalog) : Request → Catalog
  | .save name body =>
      match body.program? with
      | some p => c.set name (some p)
      | none => c
  | .delete name => c.set name none
  | .clean name => c.set name ((c name).map Program.clean)
  | _ => c

def run (c : Catalog) (requests : List Request) : Catalog := requests.foldl step c

theorem set_self (c : Catalog) (name : String) : c.set name (c name) = c := by
  funext other
  by_cases here : other = name
  · rw [set, if_pos here, here]
  · exact if_neg here

/-- A request that writes no row leaves a map as it was. -/
theorem step_of_reads (c : Catalog) {request : Request} {name : String}
    (target : request.target? = some name) (reads : ¬ request.Writes name) :
    c.step request = c := by
  cases request with
  | delete other =>
      cases target
      exact absurd rfl reads
  | clean other =>
      cases target
      exact absurd rfl reads
  | save other body => cases target
  | _ => rfl

/-- Without a program of its name, a request for a stored program changes nothing. -/
theorem step_of_none (c : Catalog) {request : Request} {name : String}
    (target : request.target? = some name) (missing : c name = none) : c.step request = c := by
  cases request with
  | delete other =>
      cases target
      rw [step, ← missing]
      exact c.set_self name
  | clean other =>
      cases target
      rw [step, missing, Option.map_none, ← missing]
      exact c.set_self name
  | save other body => cases target
  | _ => rfl

end Catalog

/-! ### What a sender can tell -/

/-- What becomes of the program of a name. -/
inductive Effect
  | kept
  | removed
deriving DecidableEq, Repr

/-- Whether there is a program afterwards. -/
def Effect.leaves : Effect → Bool
  | .kept => true
  | .removed => false

namespace Request

/-- What a request did to the program of a name, by its answer: a save keeps the program that it takes,
a cleaning the one that it found, and a deletion removes it if it succeeds. -/
def effect? (name : String) : Request × Response → Option Effect
  | (.save other body, _) => if other = name ∧ body.program?.isSome then some .kept else none
  | (.clean other, answer) => if other = name ∧ answer.status ≠ 404 then some .kept else none
  | (.delete other, answer) => if other = name ∧ answer.status = 204 then some .removed else none
  | _ => none

/-- What the latest request to change the program of a name did to it. -/
def lastEffect? (name : String) (history : List (Request × Response)) : Option Effect :=
  (history.filterMap (effect? name)).getLast?

theorem effect?_of_not_writes {name : String} {request : Request}
    (untouched : ¬ request.Writes name) (answer : Response) :
    effect? name (request, answer) = none := by
  cases request with
  | save other body => exact if_neg fun changed => untouched changed.1
  | delete other => exact if_neg fun changed => untouched changed.1
  | clean other => exact if_neg fun changed => untouched changed.1
  | _ => rfl

theorem lastEffect?_cons (name : String) (entry : Request × Response)
    (history : List (Request × Response)) :
    lastEffect? name (entry :: history) =
      (lastEffect? name history).or (effect? name entry) := by
  unfold lastEffect?
  cases changed : effect? name entry with
  | none => rw [List.filterMap_cons_none changed, Option.or_none]
  | some effect =>
      rw [List.filterMap_cons_some changed, List.getLast?_cons]
      cases (history.filterMap (effect? name)).getLast? <;> rfl

end Request

namespace Store

/-- Under each name, a store holds the stored form of the program that a map has. -/
structure Represents (s : Store) (c : Catalog) : Prop where
  rows : ∀ name, s.get? name = (c name).map Program.encode
  stored : ∀ name p, c name = some p → p.StoredAs p.encode

theorem represents_empty : Represents empty Catalog.empty where
  rows _ := rfl
  stored := nofun

namespace Represents

variable {s : Store} {c : Catalog} (represents : s.Represents c)

include represents

/-- A program is found in the store exactly where the map has it. -/
theorem load_eq (name : String) : s.load name = (c name).map .ok := by
  unfold load
  rw [represents.rows name]
  cases present : c name with
  | none => rfl
  | some p => exact congrArg some (represents.stored name p present).read

theorem eq_some_of_load {name : String} {p : Program} (loaded : s.load name = some (.ok p)) :
    c name = some p := by
  rw [represents.load_eq name] at loaded
  obtain ⟨q, present, same⟩ := Option.map_eq_some_iff.1 loaded
  rw [present, Except.ok.inj same]

theorem set {after : Store} {name : String} {entry : Option Program}
    (rows : ∀ other, after.get? other =
      if other = name then entry.map Program.encode else s.get? other)
    (stored : ∀ p ∈ entry, p.StoredAs p.encode) : after.Represents (c.set name entry) where
  rows other := by
    rw [rows other, represents.rows other, Catalog.set]
    split <;> rfl
  stored other p present := by
    unfold Catalog.set at present
    split at present
    · exact stored p present
    · exact represents.stored other p present

theorem put {p : Program} (stored : p.StoredAs p.encode) (name : String) :
    (s.put name p.encode).Represents (c.set name (some p)) :=
  represents.set (fun other => get?_put s name other p.encode) fun _ same =>
    Option.mem_some_iff.1 same ▸ stored

theorem remove (name : String) : (s.remove name).Represents (c.set name none) :=
  represents.set (fun other => get?_remove s name other) nofun

/-- Whatever a request does to a store, it does to the map. -/
theorem step {request : Request} {after : Store} {answer : Response}
    (answered : s.Answered request after answer) : after.Represents (c.step request) := by
  cases answered with
  | listed => exact represents
  | @refused name body answer refused status =>
      have same : c.step (.save name body) = c := by simp only [Catalog.step, refused]
      rw [same]
      exact represents
  | @saved name body p answer taken =>
      have next : c.step (.save name body) = c.set name (some p) := by
        simp only [Catalog.step, taken]
      exact next ▸ represents.put (Body.storedAs_of_program? taken) name
  | @unknown request name target missing =>
      have absent : c name = none := by
        rw [represents.rows name] at missing
        exact Option.map_eq_none_iff.1 missing
      exact (c.step_of_none target absent).symm ▸ represents
  | @unreadable request name fault target loaded =>
      rw [represents.load_eq name] at loaded
      obtain ⟨p, -, impossible⟩ := Option.map_eq_some_iff.1 loaded
      cases impossible
  | shown target reads loaded found => exact (c.step_of_reads target reads).symm ▸ represents
  | deleted loaded => exact represents.remove _
  | @cleaned name p answer loaded found =>
      have present := represents.eq_some_of_load loaded
      have next : c.step (.clean name) = c.set name (some p.clean) := by
        rw [Catalog.step, present, Option.map_some]
      exact next ▸ represents.put (represents.stored name p present).clean name

end Represents

/-- The map is followed request by request. -/
theorem represents_run {s : Store} {c : Catalog} (represents : s.Represents c)
    (requests : List Request) : (s.run requests).1.Represents (c.run requests) := by
  induction requests generalizing s c with
  | nil => exact represents
  | cons request rest ih => exact ih (represents.step (s.answered_handle request))

/-! ### Names and what requests did to them -/

open Request

/-- There is a program of a name after a request if the request kept it, or if it was there and the
request did nothing to it. -/
theorem Answered.isSome_get? {s : Store} {request : Request} {after : Store} {answer : Response}
    (answered : s.Answered request after answer) (name : String) :
    (after.get? name).isSome =
      ((effect? name (request, answer)).map Effect.leaves).getD (s.get? name).isSome := by
  by_cases writes : request.Writes name
  · -- The request is a save, a deletion or a cleaning under the name itself.
    cases request with
    | save other body =>
        obtain rfl : other = name := writes
        cases answered with
        | refused refused status => simp [effect?, refused]
        | saved taken => simp [effect?, taken, get?_put, Effect.leaves]
        | unknown target missing => cases target
        | unreadable target loaded => cases target
        | shown target reads loaded found => cases target
    | delete other =>
        obtain rfl : other = name := writes
        cases answered with
        | unknown target missing =>
            simp [effect?, Refusal.response, Refusal.status, Response.status]
        | unreadable target loaded => simp [effect?, Response.status]
        | shown target reads loaded found =>
            cases target
            exact absurd rfl reads
        | deleted loaded => simp [effect?, get?_remove, Response.status, Effect.leaves]
    | clean other =>
        obtain rfl : other = name := writes
        cases answered with
        | unknown target missing =>
            simp [effect?, Refusal.response, Refusal.status, Response.status]
        | unreadable target loaded =>
            cases target
            simp [effect?, Response.status, Effect.leaves, isSome_of_load loaded]
        | shown target reads loaded found =>
            cases target
            exact absurd rfl reads
        | cleaned loaded found => simp [effect?, found, get?_put, Effect.leaves]
    | _ => cases writes
  · rw [effect?_of_not_writes writes, answered.get?_eq writes]
    rfl

/-- The last request that had an effect decides whether there is a row. -/
theorem isSome_get?_run (s : Store) (requests : List Request) (name : String) :
    ((s.run requests).1.get? name).isSome =
      ((lastEffect? name (requests.zip (s.run requests).2)).map Effect.leaves).getD
        (s.get? name).isSome := by
  induction requests generalizing s with
  | nil => rfl
  | cons request rest ih =>
      have step := (s.answered_handle request).isSome_get? name
      have later := ih (s.handle request).1
      show (((s.handle request).1.run rest).1.get? name).isSome = _
      rw [later, step]
      show _ = ((lastEffect? name ((request, (s.handle request).2) ::
        rest.zip ((s.handle request).1.run rest).2)).map Effect.leaves).getD _
      rw [lastEffect?_cons]
      cases lastEffect? name (rest.zip ((s.handle request).1.run rest).2) <;> rfl

theorem get?_run_eq_none_iff (requests : List Request) (name : String) :
    (Store.empty.run requests).1.get? name = none ↔
      lastEffect? name (requests.zip (Store.empty.run requests).2) ≠ some .kept := by
  rw [← Option.not_isSome_iff_eq_none, isSome_get?_run]
  cases lastEffect? name (requests.zip (Store.empty.run requests).2) with
  | none => simp [empty, get?]
  | some effect => cases effect <;> simp [Effect.leaves]

open Document in
/-- After any requests, the table of a store that was empty has no key twice, and under the key of a
name it has the program of the name in the map that the requests make, if there is one. The names that
are listed, in ascending order, are those that the latest request with an effect on them kept. All
requests for the programs of other names are answered with 404. A further request leaves the table as it
is, or gives the document of its name new data, or takes it away; it changes no document of another
name. -/
theorem run_catalog (requests : List Request) :
    let s := (Store.empty.run requests).1
    let history := requests.zip (Store.empty.run requests).2
    let names := programNames s.documents
    (s.documents.map Document.key).Nodup ∧
    (∀ name, search (programKey name) s.documents =
        ((Catalog.empty.run requests name).map fun p => ⟨programKey name, p.encode⟩).toList ∧
      s.load name = (Catalog.empty.run requests name).map .ok) ∧
    ((s.handle .list).2 =
        .json 200 (.obj [("programs", .arr (names.map fun name : String => .str name))]) ∧
      names.Pairwise (· < ·) ∧
      ∀ name, name ∈ names ↔ lastEffect? name history = some .kept) ∧
    (∀ request name, request.target? = some name →
      ((s.handle request).2.status = 404 ↔ lastEffect? name history ≠ some .kept)) ∧
    (∀ request, let after := (s.handle request).1
      after.documents = s.documents ∨ ∃ name, request.Writes name ∧
        ((∃ p : Program, after.documents = upsert (programKey name) p.encode s.documents) ∨
          after.documents = Document.remove (programKey name) s.documents)) ∧
    ∀ request name other, request.name? = some name → other ≠ name →
      search (programKey other) (s.handle request).1.documents =
        search (programKey other) s.documents := by
  intro s history names
  have listed : s.names = names := s.names_eq
  have keyed : s.Keyed := keyed_run keyed_empty requests
  have represents : s.Represents (Catalog.empty.run requests) :=
    represents_run represents_empty requests
  have missing (name : String) : s.get? name = none ↔ lastEffect? name history ≠ some .kept :=
    get?_run_eq_none_iff requests name
  refine ⟨nodup_keys_documents keyed, fun name => ⟨?_, represents.load_eq name⟩,
    ⟨?_, listed ▸ names_ascending keyed, fun name => ?_⟩, fun request name target => ?_,
    fun request => documents_answered keyed (s.answered_handle request),
    fun request name other named different => search_handle s request named different⟩
  · rw [search_programKey keyed, represents.rows name, Option.map_map]
    rfl
  · rw [← listed]
    rfl
  · rw [← listed, mem_names_iff, Option.isSome_iff_ne_none]
    exact not_iff_comm.1 (missing name).symm
  · rw [status_handle s request target]
    exact missing name

open Document in
/-- Of two programs, the one that was deleted is listed and found no more, and the other stays. -/
theorem run_catalog_deleted :
    let requests : List Request :=
      [.save "a" (.json (.obj [])), .save "b" (.json (.obj [])), .clean "b", .delete "a"]
    let s := (Store.empty.run requests).1
    "a" ∉ programNames s.documents ∧ "b" ∈ programNames s.documents ∧
    (s.handle (.summary "a")).2.status = 404 ∧ (s.handle (.summary "b")).2.status ≠ 404 ∧
    search (programKey "b") (s.handle (.save "a" (.json (.obj [])))).1.documents =
      search (programKey "b") s.documents := by
  intro requests s
  have gone : Request.lastEffect? "a" (requests.zip (Store.empty.run requests).2) = some .removed :=
    rfl
  have kept : Request.lastEffect? "b" (requests.zip (Store.empty.run requests).2) = some .kept := rfl
  obtain ⟨-, -, ⟨-, -, exactly⟩, found, -, frame⟩ := run_catalog requests
  refine ⟨?_, (exactly "b").2 kept, ?_, ?_, frame _ "a" "b" rfl (by decide)⟩
  · intro member
    cases gone.symm.trans ((exactly "a").1 member)
  · refine (found (.summary "a") "a" rfl).2 fun still => ?_
    cases gone.symm.trans still
  · intro status
    exact (found (.summary "b") "b" rfl).1 status kept

end Store

end Circuit

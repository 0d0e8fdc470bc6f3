import Mathlib.Data.List.Basic
import Mathlib.Data.List.Nodup
import Mathlib.Data.String.Basic
import Circuit.Proofs.Store.Requests

/-!
# Stores as tables

A store is kept in a table of documents. The key of a program's document is its name behind a fixed
beginning.

* `Document.search`, `Document.upsert` and `Document.remove` act on the documents of a key.
* `Store.documents` is the table of a store, and `Store.Keyed` says that no name is there twice. The
  operations of a store are those of its table: `search_programKey`, `documents_put`, `documents_remove`
  and `names_eq`.
* `Store.documents_answered` and `Store.search_handle` say what a request does to the table.
-/

namespace Circuit

structure Document where
  key : String
  data : Json
deriving Repr

namespace Document

/-- What the keys of programs begin with. -/
def keyStart : String := "ir.program."

def programKey (name : String) : String := keyStart ++ name

/-- The name of the program that a key is for. -/
def programName? (key : String) : Option String :=
  (key.toList.dropPrefix? keyStart.toList).map String.ofList

def search (key : String) (table : List Document) : List Document :=
  table.filter fun d => d.key = key

/-- Gives the documents under a key new data; without any, there is a new one. -/
def upsert (key : String) (data : Json) (table : List Document) : List Document :=
  if table.any fun d => d.key = key then
    table.map fun d => if d.key = key then ⟨key, data⟩ else d
  else table ++ [⟨key, data⟩]

def remove (key : String) (table : List Document) : List Document :=
  table.filter fun d => d.key ≠ key

def programNames (table : List Document) : List String :=
  (table.filterMap fun d => programName? d.key).mergeSort fun a b => decide (a ≤ b)

theorem programKey_inj {name other : String} : programKey name = programKey other ↔ name = other :=
  String.append_right_inj keyStart

/-- A key tells the name of its program, and no other key does. -/
theorem programName?_eq_some_iff {key name : String} :
    programName? key = some name ↔ key = programKey name := by
  unfold programName? programKey
  rw [Option.map_eq_some_iff, ← String.toList_inj, String.toList_append]
  constructor
  · rintro ⟨rest, dropped, rfl⟩
    obtain ⟨start, split, same⟩ := List.dropPrefix?_eq_some_iff.1 dropped
    rw [split, eq_of_beq same, String.toList_ofList]
  · intro split
    refine ⟨name.toList, List.dropPrefix?_eq_some_iff.2 ⟨_, split, beq_self_eq_true _⟩, ?_⟩
    exact String.ofList_toList

theorem programName?_programKey (name : String) : programName? (programKey name) = some name :=
  programName?_eq_some_iff.2 rfl

/-- Documents under another key are found as before, whatever is taken away. -/
theorem search_remove {key other : String} (different : other ≠ key) (table : List Document) :
    search other (remove key table) = search other table := by
  unfold search remove
  rw [List.filter_filter]
  refine List.filter_congr fun d _ => ?_
  by_cases here : d.key = other
  · simp [here, different]
  · simp [here]

theorem upsert_cons_of_ne {key : String} {d : Document} (other : d.key ≠ key) (data : Json)
    (table : List Document) : upsert key data (d :: table) = d :: upsert key data table := by
  unfold upsert
  rw [List.any_cons, decide_eq_false other, Bool.false_or, List.map_cons, if_neg other]
  split <;> rfl

theorem upsert_cons_of_eq {key : String} {d : Document} (here : d.key = key) (data : Json)
    {table : List Document} (fresh : ∀ e ∈ table, e.key ≠ key) :
    upsert key data (d :: table) = ⟨key, data⟩ :: table := by
  unfold upsert
  rw [List.any_cons, decide_eq_true here, Bool.true_or, if_pos rfl, List.map_cons, if_pos here]
  congr 1
  calc
    table.map (fun e => if e.key = key then ⟨key, data⟩ else e) = table.map id :=
      List.map_congr_left fun e member => if_neg (fresh e member)
    _ = table := List.map_id table

end Document

namespace Store

open Document

def documents (s : Store) : List Document := s.rows.map fun row => ⟨programKey row.1, row.2⟩

/-- No name has two rows. -/
def Keyed (s : Store) : Prop := (s.rows.map (·.1)).Nodup

theorem keyed_empty : Keyed empty := List.nodup_nil

namespace Keyed

variable {s : Store} (keyed : s.Keyed) (name : String)

include keyed

theorem put (data : Json) : (s.put name data).Keyed := by
  obtain ⟨rows⟩ := s
  unfold Store.put Keyed
  induction rows with
  | nil => exact List.nodup_singleton name
  | cons row rest ih =>
      obtain ⟨fresh, rest_keyed⟩ := List.nodup_cons.1 keyed
      rw [putRow]
      by_cases here : row.1 = name
      · rw [if_pos here, List.map_cons, ← here]
        exact List.nodup_cons.2 ⟨fresh, rest_keyed⟩
      · rw [if_neg here, List.map_cons]
        refine List.nodup_cons.2 ⟨fun member => ?_, ih rest_keyed⟩
        obtain ⟨other, other_member, same⟩ := List.mem_map.1 member
        rcases mem_putRow other_member with rfl | old
        · exact here same.symm
        · exact fresh (List.mem_map.2 ⟨other, old, same⟩)

theorem remove : (s.remove name).Keyed := by
  have fewer : (s.remove name).rows.Sublist s.rows := List.filter_sublist
  exact List.Nodup.sublist (fewer.map _) keyed

end Keyed

/-! ### The operations of a store -/

/-- Under the key of a name there is a document with its value, and no other. -/
theorem search_programKey {s : Store} (keyed : s.Keyed) (name : String) :
    search (programKey name) s.documents =
      ((s.get? name).map fun data => ⟨programKey name, data⟩).toList := by
  obtain ⟨rows⟩ := s
  unfold search get? documents
  induction rows with
  | nil => rfl
  | cons row rest ih =>
      obtain ⟨key, value⟩ := row
      obtain ⟨fresh, rest_keyed⟩ := List.nodup_cons.1 keyed
      rw [List.map_cons, List.lookup_cons]
      by_cases here : name = key
      · subst here
        have others : (rest.map fun row => (⟨programKey row.1, row.2⟩ : Document)).filter
            (fun d => d.key = programKey name) = [] := by
          rw [List.filter_map, List.map_eq_nil_iff, List.filter_eq_nil_iff]
          intro row member same
          exact fresh (List.mem_map.2 ⟨row, member, programKey_inj.1 (of_decide_eq_true same)⟩)
        rw [List.filter_cons_of_pos (by simp), others, beq_self_eq_true]
        rfl
      · have passed : (name == key) = false := beq_false_of_ne here
        have other : ¬ programKey key = programKey name := fun same =>
          here (programKey_inj.1 same).symm
        rw [passed, List.filter_cons_of_neg (by simpa using other)]
        exact ih rest_keyed

/-- Only the first row of a name gets a new value, so that other rows of the name would stay. -/
theorem documents_put {s : Store} (keyed : s.Keyed) (name : String) (data : Json) :
    (s.put name data).documents = upsert (programKey name) data s.documents := by
  obtain ⟨rows⟩ := s
  unfold put documents
  induction rows with
  | nil => rfl
  | cons row rest ih =>
      obtain ⟨fresh, rest_keyed⟩ := List.nodup_cons.1 keyed
      rw [putRow, List.map_cons]
      by_cases here : row.1 = name
      · have absent : ∀ d ∈ rest.map (fun r => (⟨programKey r.1, r.2⟩ : Document)),
            d.key ≠ programKey name := by
          intro d member same
          obtain ⟨r, r_member, rfl⟩ := List.mem_map.1 member
          have r_name : r.1 = row.1 := (programKey_inj.1 same).trans here.symm
          exact fresh (List.mem_map.2 ⟨r, r_member, r_name⟩)
        rw [if_pos here, List.map_cons, upsert_cons_of_eq (congrArg programKey here) data absent]
      · rw [if_neg here, List.map_cons, upsert_cons_of_ne (fun same => here (programKey_inj.1 same))]
        exact congrArg _ (ih rest_keyed)

theorem documents_remove (s : Store) (name : String) :
    (s.remove name).documents = Document.remove (programKey name) s.documents := by
  unfold Store.remove Document.remove documents
  rw [List.filter_map]
  congr 1
  refine List.filter_congr fun row _ => ?_
  simp [programKey_inj]

/-- In a store that has every name once, no two documents have one key. -/
theorem nodup_keys_documents {s : Store} (keyed : s.Keyed) :
    (s.documents.map Document.key).Nodup := by
  unfold documents
  rw [List.map_map]
  have keys := keyed.map fun name other same => programKey_inj.1 same
  rwa [List.map_map] at keys

theorem names_eq (s : Store) : s.names = programNames s.documents := by
  unfold names programNames documents
  rw [List.filterMap_map, ← List.filterMap_eq_map]
  congr 1
  refine List.filterMap_congr fun row _ => ?_
  exact (programName?_programKey row.1).symm

/-! ### The names of a store -/

theorem mem_names_iff (s : Store) (name : String) : name ∈ s.names ↔ (s.get? name).isSome := by
  unfold names get?
  rw [List.mem_mergeSort, List.lookup_isSome_iff, List.mem_map]
  exact exists_congr fun row => and_congr_right fun _ => by rw [beq_iff_eq, eq_comm]

/-- The names of a store without a name twice are in strictly ascending order. -/
theorem names_ascending {s : Store} (keyed : s.Keyed) : s.names.Pairwise (· < ·) := by
  have trans (a b c : String) (first : decide (a ≤ b) = true) (second : decide (b ≤ c) = true) :
      decide (a ≤ c) = true :=
    decide_eq_true (String.le_trans (of_decide_eq_true first) (of_decide_eq_true second))
  have total (a b : String) : (decide (a ≤ b) || decide (b ≤ a)) = true := by
    rw [← Bool.decide_or]
    exact decide_eq_true (String.le_total a b)
  have ordered : s.names.Pairwise (· ≤ ·) :=
    (List.pairwise_mergeSort trans total _).imp of_decide_eq_true
  have distinct : s.names.Nodup := (List.mergeSort_perm _ _).nodup_iff.2 keyed
  refine (ordered.and distinct).imp fun below => ?_
  exact lt_of_le_of_ne below.1 below.2

/-! ### What requests do to a table -/

theorem keyed_answered {s : Store} (keyed : s.Keyed) {request : Request} {after : Store}
    {answer : Response} (answered : s.Answered request after answer) : after.Keyed := by
  cases answered with
  | saved taken => exact keyed.put _ _
  | deleted loaded => exact keyed.remove _
  | cleaned loaded found => exact keyed.put _ _
  | _ => exact keyed

/-- No request makes a second row for a name. -/
theorem keyed_run {s : Store} (keyed : s.Keyed) (requests : List Request) :
    (s.run requests).1.Keyed := by
  induction requests generalizing s with
  | nil => exact keyed
  | cons request rest ih => exact ih (keyed_answered keyed (s.answered_handle request))

/-- A request leaves the table as it was, or gives the documents of a name new data, or takes them
away. -/
theorem documents_answered {s : Store} (keyed : s.Keyed) {request : Request} {after : Store}
    {answer : Response} (answered : s.Answered request after answer) :
    after.documents = s.documents ∨ ∃ name, request.Writes name ∧
      ((∃ p : Program, after.documents = upsert (programKey name) p.encode s.documents) ∨
        after.documents = Document.remove (programKey name) s.documents) := by
  cases answered with
  | saved taken => exact .inr ⟨_, rfl, .inl ⟨_, documents_put keyed _ _⟩⟩
  | deleted loaded => exact .inr ⟨_, rfl, .inr (documents_remove s _)⟩
  | cleaned loaded found => exact .inr ⟨_, rfl, .inl ⟨_, documents_put keyed _ _⟩⟩
  | _ => exact .inl rfl

/-- A request leaves the documents of every name but its own. -/
theorem search_handle (s : Store) (request : Request) {name other : String}
    (named : request.name? = some name) (different : other ≠ name) :
    search (programKey other) (s.handle request).1.documents =
      search (programKey other) s.documents := by
  have apart : programKey other ≠ programKey name := fun same => different (programKey_inj.1 same)
  calc
    search (programKey other) (s.handle request).1.documents =
        search (programKey other) ((s.handle request).1.remove name).documents := by
      rw [documents_remove, search_remove apart]
    _ = search (programKey other) (s.remove name).documents := by rw [remove_handle s request named]
    _ = search (programKey other) s.documents := by rw [documents_remove, search_remove apart]

end Store

end Circuit

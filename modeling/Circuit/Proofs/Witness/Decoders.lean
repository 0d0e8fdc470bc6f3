import Circuit.Proofs.Witness.Fields
import Circuit.Proofs.Witness.File

/-!
# Two ways to send a witness

The values of variables can be sent as the lines of a file or as the fields of an object. Both refuse an entry
that cannot be read. They differ where two names spell one variable: the file is then refused, and the object
is read with the last of the values.

* `Witness.fileOf` and `Witness.objectOf` are the two forms of a row of entries.
* `Witness.readers_agree_iff` says when they are read alike, and what happens otherwise.
-/

namespace Circuit

open Circuit.Text

namespace Witness

def fileOf (entries : List (Text × Text)) : Text := Text.lines (entries.map entryLine)

def objectOf (entries : List (Text × Text)) : List (Text × Json) := entries.map fun e => (e.1, .str e.2)

/-- Every name spells a variable, and every value an element. -/
def Readable (F : Field) (entries : List (Text × Text)) : Prop :=
  ∀ e ∈ entries, ∃ v x, Gives F (e.1, .str e.2) v x

/-- No two names spell one variable. -/
def Distinct (entries : List (Text × Text)) : Prop :=
  entries.Pairwise fun d e => ∀ v, Variable.parse d.1 = .ok v → Variable.parse e.1 ≠ .ok v

/-- Two readers refuse wrong values, or both find the same witness. -/
def Agree (a b : Except Fault Witness) : Prop :=
  (∃ fault fault', a = .error fault ∧ b = .error fault' ∧ fault.kind = .value ∧ fault'.kind = .value) ∨
    ∃ w, a = .ok w ∧ b = .ok w

variable {F : Field} {entries : List (Text × Text)} {e : Text × Text} {v : Variable} {x : Int} {w : Witness}

/-! ### The file -/

section Entries

variable (words : ∀ e ∈ entries, e.1.IsWord ∧ e.2.IsWord)
include words

theorem hasLines_fileOf : (fileOf entries).HasLines (entries.map (fun e => (entryLine e).points) ++ [[]]) := by
  have rows : (entries.map entryLine).map Text.points = entries.map fun e => (entryLine e).points :=
    List.map_map
  rw [← rows]
  exact hasLines_lines (List.forall_mem_map.2 fun e member =>
    unbroken_entryLine (words e member).1 (words e member).2)

/-- Each line of the file is well formed as its entry is readable. -/
theorem each_entries_iff :
    (∀ line ∈ entries.map fun e => (entryLine e).points, Blank line ∨ ∃ v x, Assigns F line v x) ↔
      Readable F entries := by
  rw [List.forall_mem_map]
  refine forall₂_congr fun e member => ?_
  obtain ⟨name_word, value_word⟩ := words e member
  have some_word : ¬ Blank (entryLine e).points := not_blank_of_words (words_entryLine name_word value_word)
  simp only [some_word, false_or, assigns_entryLine_iff name_word value_word, Gives]

/-- No two lines name one variable exactly if no two names spell one. -/
theorem single_entries_iff :
    ((entries.map fun e => (entryLine e).points).Pairwise fun line later => ∀ v, Names line v → ¬ Names later v) ↔
      Distinct entries := by
  rw [List.pairwise_map]
  refine List.Pairwise.iff_of_mem fun d_member e_member => ?_
  obtain ⟨d_word, d_value⟩ := words _ d_member
  obtain ⟨e_word, e_value⟩ := words _ e_member
  simp only [names_entryLine_iff d_word d_value, names_entryLine_iff e_word e_value, ne_eq]

/-- The file is in order when all entries can be read and no two name one variable. -/
theorem wellFormed_entries_iff :
    WellFormed F (entries.map (fun e => (entryLine e).points) ++ [[]]) ↔ Readable F entries ∧ Distinct entries := by
  rw [wellFormed_concat_blank_iff (List.forall_mem_nil _), ← each_entries_iff words, ← single_entries_iff words]
  exact ⟨fun h => ⟨h.each, h.single⟩, fun ⟨each, single⟩ => ⟨each, single⟩⟩

theorem givenBy_entries_iff :
    GivenBy F (entries.map (fun e => (entryLine e).points) ++ [[]]) w ↔
      ∀ v x, w.get? v = some x ↔ ∃ e ∈ entries, Gives F (e.1, .str e.2) v x := by
  rw [givenBy_concat_blank_iff (List.forall_mem_nil _)]
  refine forall₂_congr fun v x => iff_congr Iff.rfl ?_
  simp only [List.mem_map, exists_exists_and_eq_and]
  refine exists_congr fun e => and_congr_right fun member => ?_
  exact assigns_entryLine_iff (words e member).1 (words e member).2

theorem exists_read_entries_iff : (∃ w, read F (fileOf entries) = .ok w) ↔ Readable F entries ∧ Distinct entries :=
  (exists_read_iff (hasLines_fileOf words)).trans (wellFormed_entries_iff words)

theorem exists_read_error_entries (offends : ¬ (Readable F entries ∧ Distinct entries)) :
    ∃ fault, read F (fileOf entries) = .error fault ∧ fault.kind = .value := by
  cases done : read F (fileOf entries) with
  | ok w => exact absurd ((exists_read_entries_iff words).1 ⟨w, done⟩) offends
  | error fault => exact ⟨fault, rfl, ((read_eq_error_iff (hasLines_fileOf words)).1 done).kind⟩

/-- If all entries can be read, the file is refused only for a repetition. -/
theorem repeats_of_read (readable : Readable F entries) {fault : Fault}
    (refused : read F (fileOf entries) = .error fault) : ∃ number v, fault = .repeatedVariable number v := by
  obtain ⟨before, line, after, split, -, offends⟩ := (read_eq_error_iff (hasLines_fileOf words)).1 refused
  have each : ∀ line ∈ entries.map (fun e => (entryLine e).points) ++ [[]],
      Blank line ∨ ∃ v x, Assigns F line v x :=
    List.forall_mem_append.2 ⟨(each_entries_iff words).2 readable,
      List.forall_mem_singleton.2 (.inl (List.forall_mem_nil _))⟩
  exact ⟨_, offends.repeats (each line (split ▸ by simp))⟩

end Entries

/-! ### The object -/

/-- The object is read wherever its entries can be, also with one variable twice. -/
theorem exists_decode_entries (readable : Readable F entries) :
    ∃ w, Witness.decode F (.obj (objectOf entries)) = .ok w ∧
      ∀ v x, w.get? v = some x ↔ LastGiven F (objectOf entries) v x :=
  exists_decode (List.forall_mem_map.2 readable)

theorem exists_decode_error_entries (unreadable : ¬ Readable F entries) :
    ∃ fault, Witness.decode F (.obj (objectOf entries)) = .error fault ∧ fault.kind = .value := by
  simp only [Readable, not_forall] at unreadable
  obtain ⟨e, member, gives_none⟩ := unreadable
  have some_field : ∃ f ∈ objectOf entries, ¬ ∃ v x, Gives F f v x :=
    ⟨_, List.mem_map_of_mem member, gives_none⟩
  obtain ⟨f, f_member, fault, failed, refused⟩ := exists_decode_error some_field
  obtain ⟨d, -, rfl⟩ := List.mem_map.1 f_member
  exact ⟨fault, refused, kind_of_decodeEntry failed⟩

/-- When no two names spell one variable, every entry is the last for its variable. -/
theorem lastGiven_iff_of_distinct (distinct : Distinct entries) :
    LastGiven F (objectOf entries) v x ↔ ∃ e ∈ entries, Gives F (e.1, .str e.2) v x := by
  constructor
  · rintro ⟨before, f, after, split, gives, -⟩
    have member : f ∈ objectOf entries := split ▸ by simp
    obtain ⟨e, e_member, rfl⟩ := List.mem_map.1 member
    exact ⟨e, e_member, gives⟩
  · rintro ⟨e, member, gives⟩
    obtain ⟨before, after, rfl⟩ := List.append_of_mem member
    refine ⟨objectOf before, _, objectOf after, List.map_append, gives, List.forall_mem_map.2 fun later => ?_⟩
    obtain ⟨-, tail, -⟩ := List.pairwise_append.1 distinct
    exact fun later_member => (List.pairwise_cons.1 tail).1 later later_member v gives.1

/-! ### Both -/

section Both

variable (words : ∀ e ∈ entries, e.1.IsWord ∧ e.2.IsWord)
include words

/-- Readers that refuse the same data agree. -/
theorem agree_of_not_readable (unreadable : ¬ Readable F entries) :
    Agree (read F (fileOf entries)) (Witness.decode F (.obj (objectOf entries))) := by
  obtain ⟨fault, refused, kind⟩ := exists_read_error_entries words fun h => unreadable h.1
  obtain ⟨fault', refused', kind'⟩ := exists_decode_error_entries unreadable
  exact .inl ⟨fault, fault', refused, refused', kind, kind'⟩

/-- Without a variable twice, the last value given is the only one. -/
theorem agree_of_distinct (readable : Readable F entries) (distinct : Distinct entries) :
    Agree (read F (fileOf entries)) (Witness.decode F (.obj (objectOf entries))) := by
  obtain ⟨w, done⟩ := (exists_read_entries_iff words).2 ⟨readable, distinct⟩
  obtain ⟨u, done', values⟩ := exists_decode_entries readable
  obtain ⟨-, given⟩ := (read_eq_ok_iff (hasLines_fileOf words)).1 done
  have same : w = u := ext_get? fun v x =>
    ((givenBy_entries_iff words).1 given v x).trans
      ((lastGiven_iff_of_distinct distinct).symm.trans (values v x).symm)
  exact .inr ⟨w, done, same ▸ done'⟩

/-- A repetition is told by one reader only. -/
theorem outcomes_of_not_distinct (readable : Readable F entries) (repeats : ¬ Distinct entries) :
    (∃ number v, read F (fileOf entries) = .error (.repeatedVariable number v)) ∧
      ∃ w, Witness.decode F (.obj (objectOf entries)) = .ok w ∧
        ∀ v x, w.get? v = some x ↔ LastGiven F (objectOf entries) v x := by
  obtain ⟨fault, refused, -⟩ := exists_read_error_entries (F := F) words fun h => repeats h.2
  obtain ⟨number, v, rfl⟩ := repeats_of_read words readable refused
  exact ⟨⟨number, v, refused⟩, exists_decode_entries readable⟩

end Both

/-- File and object are read alike, unless all entries can be read and two names spell one variable. In that
case the file is refused for the repetition, while the object is read with the last value of each variable. -/
theorem readers_agree_iff (F : Field) {entries : List (Text × Text)}
    (words : ∀ e ∈ entries, e.1.IsWord ∧ e.2.IsWord) :
    (Agree (read F (fileOf entries)) (Witness.decode F (.obj (objectOf entries))) ↔
      ¬ (Readable F entries ∧ ¬ Distinct entries)) ∧
    (Readable F entries → ¬ Distinct entries →
      (∃ number v, read F (fileOf entries) = .error (.repeatedVariable number v)) ∧
      ∃ w, Witness.decode F (.obj (objectOf entries)) = .ok w ∧
        ∀ v x, w.get? v = some x ↔ LastGiven F (objectOf entries) v x) := by
  refine ⟨⟨fun agree ⟨readable, repeats⟩ => ?_, fun apart => ?_⟩, outcomes_of_not_distinct words⟩
  · obtain ⟨⟨number, v, refused⟩, w, done, -⟩ := outcomes_of_not_distinct words readable repeats
    rcases agree with ⟨_, fault', _, refused', _⟩ | ⟨u, done', _⟩
    · cases refused'.symm.trans done
    · cases refused.symm.trans done'
  · by_cases readable : Readable F entries
    · exact agree_of_distinct words readable (not_not.1 fun repeats => apart ⟨readable, repeats⟩)
    · exact agree_of_not_readable words readable

def spelledTwice : List (Text × Text) := [("_01", "4"), ("_1", "3")]

theorem words_spelledTwice : ∀ e ∈ spelledTwice, e.1.IsWord ∧ e.2.IsWord := by decide

theorem readable_spelledTwice : Readable Field.scalars spelledTwice := by
  refine List.forall_mem_cons.2
    ⟨⟨.loc 1 Nat.one_pos, 4, ?_⟩, List.forall_mem_singleton.2 ⟨.loc 1 Nat.one_pos, 3, ?_⟩⟩
  · exact decodeEntry_eq_ok_iff.1 rfl
  · exact decodeEntry_eq_ok_iff.1 rfl

theorem not_distinct_spelledTwice : ¬ Distinct spelledTwice := fun distinct =>
  List.rel_of_pairwise_cons distinct List.mem_cons_self (.loc 1 Nat.one_pos) rfl rfl

/-- The file is refused, and of the object's two values the second one is kept. -/
theorem readers_agree_iff_spelledTwice :
    (∀ e ∈ spelledTwice, e.1.IsWord ∧ e.2.IsWord) ∧
      ¬ Agree (read Field.scalars (fileOf spelledTwice))
        (Witness.decode Field.scalars (.obj (objectOf spelledTwice))) ∧
      ∃ w, Witness.decode Field.scalars (.obj (objectOf spelledTwice)) = .ok w ∧
        w.get? (.loc 1 Nat.one_pos) = some 3 := by
  obtain ⟨agree_iff, repeated⟩ := readers_agree_iff Field.scalars words_spelledTwice
  obtain ⟨-, w, done, values⟩ := repeated readable_spelledTwice not_distinct_spelledTwice
  refine ⟨words_spelledTwice, fun agree => agree_iff.1 agree ⟨readable_spelledTwice, not_distinct_spelledTwice⟩,
    w, done, (values _ _).2 ⟨[("_01", .str "4")], ("_1", .str "3"), [], rfl, ?_, List.forall_mem_nil _⟩⟩
  exact decodeEntry_eq_ok_iff.1 rfl

/-- Names that differ as texts can spell one variable, and then one reader drops a value that the other
refuses. -/
theorem readers_disagree_spelledTwice :
    (spelledTwice.map Prod.fst).Nodup ∧ (∀ e ∈ spelledTwice, e.1.IsWord ∧ e.2.IsWord) ∧
      read Field.scalars (fileOf spelledTwice) = .error (.repeatedVariable 2 (.loc 1 Nat.one_pos)) ∧
      Witness.decode Field.scalars (.obj (objectOf spelledTwice)) = .ok (.ofList [(.loc 1 Nat.one_pos, 3)]) ∧
      ¬ Agree (read Field.scalars (fileOf spelledTwice))
        (Witness.decode Field.scalars (.obj (objectOf spelledTwice))) := by
  have refused : read Field.scalars (fileOf spelledTwice) = .error (.repeatedVariable 2 (.loc 1 Nat.one_pos)) := rfl
  have done : Witness.decode Field.scalars (.obj (objectOf spelledTwice)) =
      .ok (.ofList [(.loc 1 Nat.one_pos, 3)]) := rfl
  refine ⟨by decide, words_spelledTwice, refused, done, ?_⟩
  rintro (⟨_, fault', _, refused', _⟩ | ⟨u, done', _⟩)
  · cases refused'.symm.trans done
  · cases refused.symm.trans done'

end Witness

end Circuit

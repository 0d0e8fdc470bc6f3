import Circuit.Proofs.R1cs.Grammar
import Circuit.Proofs.R1cs.Sink

/-!
# Files that are cut off, and files that go on

The reader walks through a file from its start, and what it asks for next depends only on what it has read. On a
file that is cut off it therefore does what it does on the whole file, up to the first bytes that are missing; and
behind a whole file it allows nothing more. No file is the start of another one.

* `Step.StopsShort` says that a step runs out of bytes on every proper start of the bytes that it takes, and
  `Step.RefusesMore` that it fails where others follow; both compose along `>>=`.
* `File.read_of_cut` and `File.read_append` are the two for whole files.
* `File.read_prefixFree` adds the exports that are left behind by a sink that fails.
-/

namespace Circuit.R1cs

open Bytes Cursor

namespace Step

variable {α β : Type}

/-- Where only a proper start of the given bytes is left, the step runs out of bytes: it asks for more of them
than there are. -/
def StopsShort (s : Step α) (bytes : Bytes) : Prop :=
  ∀ offset kept, kept <+: bytes → kept ≠ bytes →
    ∃ place count, place ≤ offset + kept.length ∧ offset + kept.length < place + count ∧
      s ⟨offset, kept⟩ = .error (.truncated place count)

/-- On the given bytes with others behind them the step fails. -/
def RefusesMore (s : Step α) (bytes : Bytes) (error : FormatError) : Prop :=
  ∀ offset extra, extra ≠ [] → s ⟨offset, bytes ++ extra⟩ = .error error

theorem bind_of_error (s : Step α) (next : α → Step β) (c : Cursor) (error : FormatError)
    (h : s c = .error error) : (s >>= next) c = .error error := by
  change (s c >>= fun p => next p.1 p.2) = .error error
  rw [h]
  rfl

theorem stopsShort_nil (s : Step α) : StopsShort s [] :=
  fun _ _ start proper => absurd (List.prefix_nil.1 start) proper

/-- A prefix of two rows of bytes ends in the first one or in the second one. -/
theorem StopsShort.bind {s : Step α} {next : α → Step β} {bytes more : Bytes} {a : α}
    (first : Reads s bytes a) (here : StopsShort s bytes) (later : StopsShort (next a) more) :
    StopsShort (s >>= next) (bytes ++ more) := by
  intro offset kept start proper
  by_cases passed : bytes <+: kept
  · -- The cut is behind the bytes of the first step, which reads them as in the whole row.
    obtain ⟨rest, rfl⟩ := passed
    have rest_start : rest <+: more := (List.prefix_append_right_inj bytes).1 start
    have rest_proper : rest ≠ more := fun whole => proper (congrArg (bytes ++ ·) whole)
    obtain ⟨place, count, inside, beyond, failed⟩ := later (offset + bytes.length) rest rest_start rest_proper
    rw [← bind_of_ok s next _ _ a (first offset rest)] at failed
    rw [List.length_append, ← Nat.add_assoc]
    exact ⟨place, count, inside, beyond, failed⟩
  · have cut : kept <+: bytes :=
      (List.prefix_or_prefix_of_prefix start (List.prefix_append bytes more)).resolve_right passed
    have unequal : kept ≠ bytes := fun whole => passed (whole ▸ List.prefix_rfl)
    obtain ⟨place, count, inside, beyond, failed⟩ := here offset kept cut unequal
    exact ⟨place, count, inside, beyond, bind_of_error s next _ _ failed⟩

/-- What is refused behind the second step is refused behind both. -/
theorem Reads.bindRefuses {s : Step α} {next : α → Step β} {bytes more : Bytes} {a : α} {error : FormatError}
    (first : Reads s bytes a) (later : RefusesMore (next a) more error) :
    RefusesMore (s >>= next) (bytes ++ more) error := by
  intro offset extra present
  rw [List.append_assoc, bind_of_ok s next _ _ a (first offset (more ++ extra))]
  exact later (offset + bytes.length) extra present

/-- A step that asks for the end allows nothing behind it. -/
theorem refusesMore_end (error : FormatError) (a : α) :
    RefusesMore (do requireEnd error; return a) [] error := by
  intro offset extra present
  cases extra with
  | nil => exact absurd rfl present
  | cons b rest => rfl

end Step

open Step

/-! ### Steps on too few bytes -/

theorem take_of_short {n : Nat} {c : Cursor} (short : c.rest.length < n) :
    take n c = .error (.truncated c.offset n) := by
  rw [take]
  split
  · rename_i taken rest split
    obtain ⟨length, parts⟩ := splitExactly?_eq_some.1 split
    rw [parts, List.length_append] at short
    omega
  · rfl

theorem take_stopsShort (bytes : Bytes) (n : Nat) (h : bytes.length = n) : StopsShort (take n) bytes := by
  subst h
  intro offset kept start proper
  have short : kept.length < bytes.length :=
    Nat.lt_of_le_of_ne start.length_le fun same => proper (start.eq_of_length same)
  exact ⟨offset, bytes.length, Nat.le_add_right _ _, Nat.add_lt_add_left short offset, take_of_short short⟩

theorem number_stopsShort (width n : Nat) : StopsShort (number width) (littleEndian width n) := by
  have length := length_littleEndian width n
  rw [← List.append_nil (littleEndian width n)]
  exact StopsShort.bind (take_reads _ width length) (take_stopsShort _ width length) (stopsShort_nil _)

/-- Induction on the sections: the prefix ends in the first of them or in a later one. -/
theorem readSections_stopsShort (found ss : List Section) (formed : ∀ s ∈ ss, s.WellFormed)
    (distinct : ((found ++ ss).map Section.type).Nodup) :
    StopsShort (readSections ss.length found) (ss.flatMap Section.bytes) := by
  induction ss generalizing found with
  | nil => exact stopsShort_nil _
  | cons s rest ih =>
    have here := formed s List.mem_cons_self
    have fresh := findSection?_fresh distinct
    have later := ih (found ++ [s]) (fun t member => formed t (List.mem_cons_of_mem s member))
      (by rwa [List.append_assoc])
    rw [List.flatMap_cons, Section.bytes, List.append_assoc, List.append_assoc, ← List.nil_append (s.body ++ _)]
    apply StopsShort.bind (number_reads 4 s.type here.type_fits) (number_stopsShort 4 s.type)
    apply StopsShort.bind (number_reads 8 s.size here.size_fits) (number_stopsShort 8 s.size)
    apply StopsShort.bind (require_reads _ (.repeatedSection s.type) fresh) (stopsShort_nil _)
    exact StopsShort.bind (take_reads s.body s.size here.size_eq.symm)
      (take_stopsShort s.body s.size here.size_eq.symm) later

/-- The sections of a container are not read where one of its bytes is missing. -/
theorem readContainer_stopsShort (ss : List Section) (container : Container ss) :
    StopsShort readContainer (containerBytes ss) := by
  have sections := readSections_reads [] ss container.formed container.distinct
  have cut := readSections_stopsShort [] ss container.formed container.distinct
  unfold containerBytes
  rw [← List.nil_append (littleEndian 4 formatVersion ++ _), ← List.nil_append (littleEndian 4 ss.length ++ _),
    ← List.append_nil (ss.flatMap _)]
  apply StopsShort.bind (take_reads magic 4 rfl) (take_stopsShort magic 4 rfl)
  apply StopsShort.bind (require_reads _ .badMagic (by decide)) (stopsShort_nil _)
  apply StopsShort.bind (number_reads 4 formatVersion (by decide)) (number_stopsShort 4 formatVersion)
  apply StopsShort.bind (require_reads _ (.badVersion formatVersion) (by decide)) (stopsShort_nil _)
  apply StopsShort.bind (number_reads 4 ss.length container.count) (number_stopsShort 4 ss.length)
  exact StopsShort.bind sections cut (stopsShort_nil _)

/-- Nothing may follow the sections of a container. -/
theorem readContainer_refusesMore (ss : List Section) (container : Container ss) :
    RefusesMore readContainer (containerBytes ss) .trailingData := by
  have sections := readSections_reads [] ss container.formed container.distinct
  unfold containerBytes
  rw [← List.nil_append (littleEndian 4 formatVersion ++ _), ← List.nil_append (littleEndian 4 ss.length ++ _),
    ← List.append_nil (ss.flatMap _)]
  apply Reads.bindRefuses (take_reads magic 4 rfl)
  apply Reads.bindRefuses (require_reads _ .badMagic (by decide))
  apply Reads.bindRefuses (number_reads 4 formatVersion (by decide))
  apply Reads.bindRefuses (require_reads _ (.badVersion formatVersion) (by decide))
  apply Reads.bindRefuses (number_reads 4 ss.length container.count)
  apply Reads.bindRefuses sections
  exact refusesMore_end .trailingData ss

/-! ### Files -/

namespace File

/-- The reader of a file runs out of bytes: it asks for more of them than there are. -/
def RunsShort (bytes : Bytes) : Prop :=
  ∃ place count, place ≤ bytes.length ∧ bytes.length < place + count ∧
    File.read bytes = .error (.truncated place count)

/-- Nothing is read from a file whose sections cannot be told. -/
theorem read_of_container_error {bytes : Bytes} {error : FormatError}
    (failed : readContainer (ofBytes bytes) = .error error) : File.read bytes = .error error := by
  unfold File.read
  rw [failed]
  rfl

variable {bytes : Bytes} {f : File}

/-- A file without its last bytes ends the reader where they are missing. -/
theorem read_of_cut (accepted : File.read bytes = .ok f) {kept : Bytes} (start : kept <+: bytes)
    (proper : kept ≠ bytes) : RunsShort kept := by
  obtain ⟨ss, container, rfl, -⟩ := (read_eq_ok bytes f).1 accepted
  obtain ⟨place, count, inside, beyond, failed⟩ := readContainer_stopsShort ss container 0 kept start proper
  rw [Nat.zero_add] at inside beyond
  exact ⟨place, count, inside, beyond, read_of_container_error failed⟩

/-- A file with bytes behind it is read no longer. -/
theorem read_append (accepted : File.read bytes = .ok f) {extra : Bytes} (present : extra ≠ []) :
    File.read (bytes ++ extra) = .error .trailingData := by
  obtain ⟨ss, container, rfl, -⟩ := (read_eq_ok bytes f).1 accepted
  exact read_of_container_error (readContainer_refusesMore ss container 0 extra present)

end File

/-! ### Exports that a sink has cut off -/

/-- No write of a row is empty. -/
def NoneEmpty (cs : List Chunk) : Prop := ∀ c ∈ cs, ∀ bytes, c = .ok bytes → bytes ≠ []

namespace NoneEmpty

theorem nil : NoneEmpty [] := fun _ member => absurd member List.not_mem_nil

theorem cons {c : Chunk} {cs : List Chunk} (here : ∀ bytes, c = .ok bytes → bytes ≠ [])
    (later : NoneEmpty cs) : NoneEmpty (c :: cs) :=
  List.forall_mem_cons.2 ⟨here, later⟩

theorem append {cs ds : List Chunk} (first : NoneEmpty cs) (later : NoneEmpty ds) : NoneEmpty (cs ++ ds) :=
  List.forall_mem_append.2 ⟨first, later⟩

theorem flatMap {α : Type} (xs : List α) (cs : α → List Chunk) (each : ∀ x ∈ xs, NoneEmpty (cs x)) :
    NoneEmpty (xs.flatMap cs) := by
  intro c member
  obtain ⟨x, x_member, here⟩ := List.mem_flatMap.1 member
  exact each x x_member c here

end NoneEmpty

theorem littleEndian_ne_nil {width : Nat} (positive : 0 < width) (n : Nat) : littleEndian width n ≠ [] := by
  rw [← List.length_pos_iff, length_littleEndian]
  exact positive

theorem ne_nil_of_word {width : Nat} (positive : 0 < width) (n : Nat) (bytes : Bytes)
    (written : word width n = .ok bytes) : bytes ≠ [] := by
  obtain ⟨-, rfl⟩ := (word_eq_ok width n bytes).1 written
  exact littleEndian_ne_nil positive n

theorem byteWidth_pos (F : Field) : 0 < F.byteWidth := by
  unfold Field.byteWidth
  omega

section Writes

variable (F : Field) (i : Interface) (constraints : List Constraint)

theorem termChunks_noneEmpty (shift : Nat) (t : Term) : NoneEmpty (termChunks shift F.byteWidth t) := by
  refine .cons (fun bytes written => ?_) (.cons (fun bytes written => ?_) .nil)
  · obtain ⟨wire, -, written⟩ := Except.bind_eq_ok.1 written
    exact ne_nil_of_word (by decide) wire bytes written
  · obtain ⟨-, rfl⟩ := (fit_eq_ok F.byteWidth t.coeff.value bytes).1 written
    exact littleEndian_ne_nil (byteWidth_pos F) _

theorem constraintChunks_noneEmpty (shift : Nat) (c : Constraint) :
    NoneEmpty (constraintChunks shift F.byteWidth c) :=
  .flatMap _ _ fun a _ => .cons (ne_nil_of_word (by decide) a.size)
    (.flatMap _ _ fun t _ => termChunks_noneEmpty F shift t)

theorem sectionHead_noneEmpty (type size : Nat) : NoneEmpty (sectionHead type size) :=
  .cons (ne_nil_of_word (by decide) type) (.cons (ne_nil_of_word (by decide) size) .nil)

theorem headerChunks_noneEmpty : NoneEmpty (headerChunks (Sizing.ofConstraints F i constraints).header) := by
  refine .cons (ne_nil_of_word (by decide) _) (.cons (fun bytes written => ?_) ?_)
  · obtain rfl := Except.ok.inj written
    exact littleEndian_ne_nil (byteWidth_pos F) F.modulus
  · refine .cons (ne_nil_of_word (by decide) _) (.cons (ne_nil_of_word (by decide) _) ?_)
    refine .cons (ne_nil_of_word (by decide) _) (.cons (ne_nil_of_word (by decide) _) ?_)
    exact .cons (ne_nil_of_word (by decide) _) (.cons (ne_nil_of_word (by decide) _) .nil)

/-- Every write of a program writes something. -/
theorem chunks_noneEmpty : NoneEmpty (chunks (Sizing.ofConstraints F i constraints) constraints) := by
  have start : NoneEmpty [.ok magic, word32 formatVersion, word32 3] := by
    refine .cons (fun bytes written => ?_) (.cons (ne_nil_of_word (by decide) _)
      (.cons (ne_nil_of_word (by decide) _) .nil))
    obtain rfl := Except.ok.inj written
    decide
  have body : NoneEmpty (constraints.flatMap (constraintChunks i.publicCount F.byteWidth)) :=
    .flatMap _ _ fun c _ => constraintChunks_noneEmpty F i.publicCount c
  have labels : NoneEmpty ((File.ofConstraints F i constraints).labels.map word64) := by
    intro c member
    obtain ⟨n, -, rfl⟩ := List.mem_map.1 member
    exact ne_nil_of_word (by decide) n
  rw [File.chunks_eq]
  exact start.append (((sectionHead_noneEmpty _ _).append body).append
    (((sectionHead_noneEmpty _ _).append (headerChunks_noneEmpty F i constraints)).append
      ((sectionHead_noneEmpty _ _).append labels)))

theorem mem_of_mem_writes (cs : List Chunk) (bytes : Bytes) (member : bytes ∈ (Run.ofChunks cs).writes) :
    .ok bytes ∈ cs := by
  induction cs with
  | nil => cases member
  | cons c rest ih =>
    cases c with
    | error fault => cases member
    | ok first =>
      rcases List.mem_cons.1 member with rfl | member
      · exact List.mem_cons_self
      · exact List.mem_cons_of_mem _ (ih member)

/-- No write of an export is empty. -/
theorem ne_nil_of_mem_writes (bytes : Bytes) (member : bytes ∈ (exportConstraints F i constraints).writes) :
    bytes ≠ [] := by
  unfold exportConstraints exportWith at member
  by_cases inside : AllInside i.publicCount constraints
  · rw [Sizing.compute_of_inside F i constraints inside] at member
    exact chunks_noneEmpty F i constraints _ (mem_of_mem_writes _ bytes member) bytes rfl
  · obtain ⟨before, t, after, split, first, outside⟩ := exists_first_outside _ _ inside
    rw [Sizing.compute_of_outside F i constraints before after t split first outside] at member
    cases member

/-- A sink that refuses a write of a program holds a proper start of the program's file. -/
theorem exportInto_of_short {bytes : Bytes}
    (written : (exportConstraints F i constraints).finished = .ok bytes) {n : Nat}
    (short : n < (exportConstraints F i constraints).writes.length) :
    (exportInto n F i constraints).2.taken.flatten <+: bytes ∧
      (exportInto n F i constraints).2.taken.flatten ≠ bytes := by
  obtain ⟨-, rfl⟩ := (Run.finished_eq_ok _ bytes).1 written
  rw [exportInto_of_lt F i constraints short]
  have parts : (exportConstraints F i constraints).bytes =
      ((exportConstraints F i constraints).writes.take n).flatten ++
        ((exportConstraints F i constraints).writes.drop n).flatten := by
    rw [← List.flatten_append, List.take_append_drop]
    rfl
  rw [parts]
  refine ⟨List.prefix_append _ _, fun same => ?_⟩
  -- The write that was refused has bytes, and none of them is in the sink.
  have refused : (exportConstraints F i constraints).writes[n] ∈
      (exportConstraints F i constraints).writes.drop n := by
    rw [List.drop_eq_getElem_cons short]
    exact List.mem_cons_self
  have empty := List.flatten_eq_nil_iff.1 (List.self_eq_append_right.1 same) _ refused
  exact ne_nil_of_mem_writes F i constraints _ (List.mem_of_mem_drop refused) empty

end Writes

/-- No file is the start of another one. A file that is cut off anywhere ends the reader where bytes are missing,
and a file that goes on ends it for the bytes behind it. So does every export that was cut off, and in particular
what is left in a sink that refuses a write of it. -/
theorem File.read_prefixFree :
    (∀ bytes f, File.read bytes = .ok f →
      (∀ kept, kept <+: bytes → kept ≠ bytes → RunsShort kept) ∧
        ∀ extra, extra ≠ [] → File.read (bytes ++ extra) = .error .trailingData) ∧
    ∀ (F : Field) (p : Supplied) bytes, (p.export F).2 = .ok bytes →
      (∀ kept, kept <+: bytes → kept ≠ bytes → RunsShort kept) ∧
        ∃ i, p.interface = .ok i ∧ (exportConstraints F i p.constraints).finished = .ok bytes ∧
          ∀ n < (exportConstraints F i p.constraints).writes.length,
            RunsShort (exportInto n F i p.constraints).2.taken.flatten := by
  refine ⟨fun bytes f accepted => ⟨fun kept => read_of_cut accepted, fun extra => read_append accepted⟩, ?_⟩
  intro F p bytes success
  obtain ⟨_, _, _, _, accepted⟩ := Supplied.read_export F p bytes success
  obtain ⟨-, i, shown, written⟩ := (Supplied.export_eq_ok F p bytes).1 success
  refine ⟨fun kept => read_of_cut accepted, i, shown, written, fun n short => ?_⟩
  obtain ⟨start, proper⟩ := exportInto_of_short F i p.constraints written short
  exact read_of_cut accepted start proper

/-- The sample without its last bytes and with one byte more, and what its first five writes leave. -/
theorem File.read_prefixFree_sample :
    File.read File.sample.bytes = .ok File.sample ∧ RunsShort (File.sample.bytes.take 50) ∧
      File.read (File.sample.bytes ++ [0]) = .error .trailingData ∧
      RunsShort (exportInto (5 : Nat) Field.seven Program.sample.interface
        Program.sample.constraints).2.taken.flatten := by
  obtain ⟨files, exports⟩ := File.read_prefixFree
  have accepted := File.read_bytes _ File.fits_sample ⟨rfl, rfl, rfl, by decide⟩
  obtain ⟨cut, longer⟩ := files _ _ accepted
  obtain ⟨-, i, shown, -, left⟩ := exports Field.seven Supplied.sample _ Supplied.export_sample
  obtain rfl := Except.ok.inj shown
  have shorter : File.sample.bytes.take 50 ≠ File.sample.bytes := by decide +kernel
  exact ⟨accepted, cut _ (List.take_prefix 50 _) shorter, longer [0] (by decide), left 5 (by decide)⟩

end Circuit.R1cs

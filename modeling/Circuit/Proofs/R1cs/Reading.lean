import Circuit.Proofs.R1cs.Layout

/-!
# Reading a file that was laid out

The reader finds section boundaries only from the sizes that a file declares. On the layout of a
file it takes exactly the bytes of each part, whatever comes behind them.

* `Step.Reads` says that a step takes given bytes and nothing else, `Step.ReadsWhole` that it takes
  all bytes there are; both compose along `>>=`.
* `File.read_bytes`: a file that fits its layout and declares the truth about itself is read back.
-/

namespace Circuit.R1cs

open Bytes Cursor

namespace Step

variable {α β : Type}

/-- On bytes that start with the given ones, the step takes these and gives the value. -/
def Reads (s : Step α) (bytes : Bytes) (a : α) : Prop :=
  ∀ offset rest, s ⟨offset, bytes ++ rest⟩ = .ok (a, ⟨offset + bytes.length, rest⟩)

/-- On the given bytes the step takes all of them and gives the value. -/
def ReadsWhole (s : Step α) (bytes : Bytes) (a : α) : Prop :=
  ∀ offset, s ⟨offset, bytes⟩ = .ok (a, ⟨offset + bytes.length, []⟩)

theorem bind_of_ok (s : Step α) (next : α → Step β) (c d : Cursor) (a : α)
    (h : s c = .ok (a, d)) : (s >>= next) c = next a d := by
  change (s c >>= fun p => next p.1 p.2) = next a d
  rw [h]
  rfl

theorem reads_pure (a : α) : Reads (pure a) [] a := fun _ _ => rfl

/-- Two steps take the bytes of both, one row behind the other. -/
theorem Reads.bind {s : Step α} {next : α → Step β} {bytes more : Bytes} {a : α} {b : β}
    (first : Reads s bytes a) (later : Reads (next a) more b) :
    Reads (s >>= next) (bytes ++ more) b := by
  intro offset rest
  rw [List.append_assoc, bind_of_ok s next _ _ a (first offset (more ++ rest)),
    later (offset + bytes.length) rest, List.length_append, Nat.add_assoc]

theorem Reads.bindWhole {s : Step α} {next : α → Step β} {bytes more : Bytes} {a : α} {b : β}
    (first : Reads s bytes a) (later : ReadsWhole (next a) more b) :
    ReadsWhole (s >>= next) (bytes ++ more) b := by
  intro offset
  rw [bind_of_ok s next _ _ a (first offset more), later (offset + bytes.length),
    List.length_append, Nat.add_assoc]

/-- At the end of the data a step may ask for the end. -/
theorem readsWhole_end (error : FormatError) (a : α) :
    ReadsWhole (do requireEnd error; return a) [] a := fun _ => rfl

end Step

open Step

theorem take_reads (bytes : Bytes) (n : Nat) (h : bytes.length = n) : Reads (take n) bytes bytes := by
  subst h
  exact fun _ _ => take_eq_ok.2 ⟨rfl, rfl, rfl⟩

theorem number_reads (width n : Nat) (fits : n < capacity width) :
    Reads (number width) (littleEndian width n) n := by
  have taken := take_reads (littleEndian width n) width (length_littleEndian width n)
  have read : Reads (number width) (littleEndian width n ++ [])
      (ofLittleEndian (littleEndian width n)) := Reads.bind taken (reads_pure _)
  rw [List.append_nil, ofLittleEndian_littleEndian width n fits] at read
  exact read

theorem require_reads (holds : Bool) (error : FormatError) (h : holds = true) :
    Reads (require holds error) [] () := by
  subst h
  exact fun _ _ => rfl

/-- Induction on the terms: the count that is left is theirs. -/
theorem readTerms_reads (width : Nat) (a : WireComb)
    (fits : ∀ t ∈ a, t.1 < capacity 4 ∧ t.2 < capacity width) :
    Reads (readTerms width a.length) (a.flatMap (termBytes width)) a := by
  induction a with
  | nil => exact reads_pure []
  | cons t rest ih =>
    have here := fits t List.mem_cons_self
    have later := ih fun u member => fits u (List.mem_cons_of_mem t member)
    rw [List.flatMap_cons, termBytes, List.append_assoc, ← List.append_nil (List.flatMap _ rest)]
    apply Reads.bind (number_reads 4 t.1 here.1)
    apply Reads.bind (number_reads width t.2 here.2)
    exact Reads.bind later (reads_pure (t :: rest))

theorem readComb_reads (width : Nat) (a : WireComb) (fits : WireComb.Fits width a) :
    Reads (readComb width) (WireComb.bytes width a) a :=
  Reads.bind (number_reads 4 a.length fits.1) (readTerms_reads width a fits.2)

theorem readConstraint_reads (width : Nat) (c : WireConstraint)
    (fits : WireConstraint.Fits width c) :
    Reads (readConstraint width) (WireConstraint.bytes width c) c := by
  unfold WireConstraint.bytes
  rw [← List.append_nil (WireComb.bytes width c.2.2)]
  apply Reads.bind (readComb_reads width c.1 fits.1)
  apply Reads.bind (readComb_reads width c.2.1 fits.2.1)
  exact Reads.bind (readComb_reads width c.2.2 fits.2.2) (reads_pure c)

/-- A constraint has bytes, so the reader does not take its first byte for the end. -/
theorem not_atEnd_constraint (width offset : Nat) (c : WireConstraint) (rest : Bytes) :
    ¬ (Cursor.atEnd ⟨offset, WireConstraint.bytes width c ++ rest⟩ = true) := by
  have long := WireConstraint.length_bytes width c
  unfold Cursor.atEnd
  intro empty
  have none_left := List.append_eq_nil_iff.1 (List.isEmpty_iff.1 empty)
  rw [none_left.1, List.length_nil] at long
  omega

/-- Constraints are read up to the end of the data. -/
theorem readConstraints_bytes (width offset : Nat) (cs : List WireConstraint)
    (fits : ∀ c ∈ cs, WireConstraint.Fits width c) :
    readConstraints width ⟨offset, cs.flatMap (WireConstraint.bytes width)⟩ = .ok cs := by
  induction cs generalizing offset with
  | nil =>
    unfold readConstraints
    rfl
  | cons c rest ih =>
    have here := readConstraint_reads width c (fits c List.mem_cons_self) offset
      (rest.flatMap (WireConstraint.bytes width))
    have later := fun start => ih start fun d member => fits d (List.mem_cons_of_mem c member)
    -- The loop keeps the equation of its step for termination, so `here` goes into each branch.
    unfold readConstraints
    rw [List.flatMap_cons, if_neg (not_atEnd_constraint width offset c _)]
    split
    · rename_i failed
      rw [here] at failed
      cases failed
    · rename_i found
      rw [here] at found
      cases found
      rw [later]
      rfl

/-- Labels are read up to the end of the data. -/
theorem readLabels_bytes (offset : Nat) (ns : List Nat) (fits : ∀ n ∈ ns, n < capacity 8) :
    readLabels ⟨offset, ns.flatMap (littleEndian 8)⟩ = .ok ns := by
  induction ns generalizing offset with
  | nil =>
    unfold readLabels
    rfl
  | cons n rest ih =>
    have here := number_reads 8 n (fits n List.mem_cons_self) offset (rest.flatMap (littleEndian 8))
    have later := fun start => ih start fun m member => fits m (List.mem_cons_of_mem n member)
    have not_end : ¬ (Cursor.atEnd ⟨offset, littleEndian 8 n ++ rest.flatMap (littleEndian 8)⟩ =
        true) := by simp [Cursor.atEnd, littleEndian]
    unfold readLabels
    rw [List.flatMap_cons, if_neg not_end]
    split
    · rename_i failed
      rw [here] at failed
      cases failed
    · rename_i found
      rw [here] at found
      cases found
      rw [later]
      rfl

/-- Among sections of distinct types, none before a section has its type. -/
theorem findSection?_fresh {found rest : List Section} {s : Section}
    (distinct : ((found ++ s :: rest).map Section.type).Nodup) :
    (findSection? found s.type).isNone = true := by
  unfold findSection?
  rw [Option.isNone_iff_eq_none, List.find?_eq_none]
  intro other member same
  rw [List.map_append, List.map_cons, List.nodup_append] at distinct
  exact distinct.2.2 _ (List.mem_map_of_mem member) _ List.mem_cons_self (of_decide_eq_true same)

/-- Sections of types that were not met before are read one after the other. -/
theorem readSections_reads (found ss : List Section) (formed : ∀ s ∈ ss, s.WellFormed)
    (distinct : ((found ++ ss).map Section.type).Nodup) :
    Reads (readSections ss.length found) (ss.flatMap Section.bytes) (found ++ ss) := by
  induction ss generalizing found with
  | nil =>
    rw [List.append_nil]
    exact reads_pure found
  | cons s rest ih =>
    have here := formed s List.mem_cons_self
    have fresh := findSection?_fresh distinct
    have later := ih (found ++ [s]) (fun t member => formed t (List.mem_cons_of_mem s member))
      (by rw [List.append_assoc]; exact distinct)
    rw [List.append_assoc] at later
    rw [List.flatMap_cons, Section.bytes, List.append_assoc, List.append_assoc,
      ← List.nil_append (s.body ++ _)]
    apply Reads.bind (number_reads 4 s.type here.type_fits)
    apply Reads.bind (number_reads 8 s.size here.size_fits)
    apply Reads.bind (require_reads _ (.repeatedSection s.type) fresh)
    exact Reads.bind (take_reads s.body s.size here.size_eq.symm) later

/-- The mark, the version and the sections are read up to the end of the file. -/
theorem readContainer_readsWhole (ss : List Section) (count : ss.length < capacity 4)
    (formed : ∀ s ∈ ss, s.WellFormed) (distinct : (ss.map Section.type).Nodup) :
    ReadsWhole readContainer (magic ++ (littleEndian 4 formatVersion ++
      (littleEndian 4 ss.length ++ ss.flatMap Section.bytes))) ss := by
  have body := readSections_reads [] ss formed distinct
  rw [← List.nil_append (littleEndian 4 formatVersion ++ _),
    ← List.nil_append (littleEndian 4 ss.length ++ _), ← List.append_nil (ss.flatMap _)]
  apply Reads.bindWhole (take_reads magic 4 rfl)
  apply Reads.bindWhole (require_reads _ .badMagic (by decide))
  apply Reads.bindWhole (number_reads 4 formatVersion (by decide))
  apply Reads.bindWhole (require_reads _ (.badVersion formatVersion) (by decide))
  apply Reads.bindWhole (number_reads 4 ss.length count)
  apply Reads.bindWhole body
  exact readsWhole_end .trailingData ss

namespace File

/-- The header section gives all of a file but its constraints and labels. -/
theorem readHeader_readsWhole (f : File) (sizes : List (Nat × Nat)) (fits : f.Fits) :
    ReadsWhole (readHeader sizes) f.headerBody
      { f with version := formatVersion, constraints := [], labels := [], sectionSizes := sizes } := by
  unfold headerBody
  rw [← List.append_nil (littleEndian 4 f.constraintCount)]
  apply Reads.bindWhole (number_reads 4 f.fieldSize fits.fieldSize)
  apply Reads.bindWhole (number_reads f.fieldSize f.prime fits.prime)
  apply Reads.bindWhole (number_reads 4 f.wireCount fits.wireCount)
  apply Reads.bindWhole (number_reads 4 f.publicOutputs fits.publicOutputs)
  apply Reads.bindWhole (number_reads 4 f.publicInputs fits.publicInputs)
  apply Reads.bindWhole (number_reads 4 f.privateInputs fits.privateInputs)
  apply Reads.bindWhole (number_reads 8 f.labelCount fits.labelCount)
  apply Reads.bindWhole (number_reads 4 f.constraintCount fits.constraintCount)
  exact readsWhole_end .badHeaderSize _

/-- The bodies of the three sections give the file back. -/
theorem readBodies_sections (f : File) (fits : f.Fits) (truth : f.Consistent) :
    readBodies f.sections = .ok f := by
  have header := readHeader_readsWhole f (f.sections.map fun s => (s.type, s.size)) fits 0
  have constraints := readConstraints_bytes f.fieldSize 0 f.constraints fits.constraints
  have labels := readLabels_bytes 0 f.labels fits.labels
  have counts : checkCounts f = .ok f := by
    unfold checkCounts
    rw [if_neg (not_not_intro truth.constraintCount.symm),
      if_neg (not_not_intro truth.labelCount.symm)]
  rw [← truth.version, ← truth.sectionSizes] at header
  -- The bodies are found by their types, and the header comes first although it is written second.
  change (readHeader (f.sections.map fun s => (s.type, s.size)) ⟨0, f.headerBody⟩ >>= fun p => do
    let constraints ← readConstraints p.1.fieldSize ⟨0, f.constraintBody⟩
    let labels ← readLabels ⟨0, f.labelBody⟩
    checkCounts { p.1 with constraints := constraints, labels := labels }) = .ok f
  rw [← truth.sectionSizes, header]
  change (readConstraints f.fieldSize ⟨0, f.constraintBody⟩ >>= fun constraints => do
    let labels ← readLabels ⟨0, f.labelBody⟩
    checkCounts { f with constraints := constraints, labels := labels }) = .ok f
  unfold constraintBody labelBody
  rw [constraints, labels]
  exact counts

theorem types_sections (f : File) :
    f.sections.map Section.type = [constraintSection, headerSection, labelSection] := rfl

theorem wellFormed_sections (f : File) (fits : f.Fits) : ∀ s ∈ f.sections, s.WellFormed := by
  obtain ⟨constraints, header, labels⟩ := (f.forall_mem_sections _).1 fits.sizes
  have constraint_type : constraintSection < capacity 4 := by decide
  have header_type : headerSection < capacity 4 := by decide
  have label_type : labelSection < capacity 4 := by decide
  exact (f.forall_mem_sections _).2 ⟨⟨constraint_type, constraints, rfl⟩,
    ⟨header_type, header, rfl⟩, ⟨label_type, labels, rfl⟩⟩

/-- A file whose numbers have room and whose declarations are true is read back from its layout. -/
theorem read_bytes (f : File) (fits : f.Fits) (truth : f.Consistent) :
    File.read f.bytes = .ok f := by
  have count : f.sections.length < capacity 4 := show 3 < capacity 4 by decide
  have distinct : (f.sections.map Section.type).Nodup := by
    rw [types_sections]
    decide
  have container := readContainer_readsWhole f.sections count (wellFormed_sections f fits) distinct 0
  rw [← truth.version] at container
  change (readContainer ⟨0, f.bytes⟩ >>= fun p => readBodies p.1) = .ok f
  unfold bytes
  rw [container]
  exact readBodies_sections f fits truth

end File

end Circuit.R1cs

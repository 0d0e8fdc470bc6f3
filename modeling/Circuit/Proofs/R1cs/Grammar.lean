import Mathlib.Data.List.Nodup
import Circuit.Proofs.Except
import Circuit.Proofs.Field.Width
import Circuit.Proofs.R1cs.Reading

/-!
# The grammar of constraint files

Which bytes are a constraint file, whoever wrote them: sections may come in any order, and sections of
unknown type may stand between them.

* `Container` and `File.Spells` are the grammar: the first of the sections, the second of what
  stands in the three known ones.
* `Step.Takes` says that a step takes the layout of what it gives, and nothing else.
* `File.read_eq_ok` and `File.read_outcome`: the reader accepts exactly the grammar.
-/

namespace Circuit.R1cs

open Bytes Cursor

/-- Sections that can stand one after the other in a file: they are fewer than a count can say, each
has its true size, and no type comes twice. -/
structure Container (ss : List Section) : Prop where
  count : ss.length < capacity 4
  formed : ∀ s ∈ ss, s.WellFormed
  distinct : (ss.map Section.type).Nodup

def containerBytes (ss : List Section) : Bytes :=
  magic ++ (littleEndian 4 formatVersion ++
    (littleEndian 4 ss.length ++ ss.flatMap Section.bytes))

/-- There is a section of the given type with the given body. -/
def HasBody (ss : List Section) (type : Nat) (body : Bytes) : Prop :=
  ∃ s ∈ ss, s.type = type ∧ s.body = body

/-- The numbers of a header have room in their places. -/
structure File.HeaderFits (f : File) : Prop where
  fieldSize : f.fieldSize < capacity 4
  prime : f.prime < capacity f.fieldSize
  wireCount : f.wireCount < capacity 4
  publicOutputs : f.publicOutputs < capacity 4
  publicInputs : f.publicInputs < capacity 4
  privateInputs : f.privateInputs < capacity 4
  labelCount : f.labelCount < capacity 8
  constraintCount : f.constraintCount < capacity 4

/-- Sections spell a file: the three known bodies are there, each is the layout of its part of the
file to the last byte, and there are as many constraints and labels as the header says. -/
structure File.Spells (f : File) (ss : List Section) : Prop where
  version : f.version = formatVersion
  sectionSizes : f.sectionSizes = ss.map fun s => (s.type, s.size)
  header : HasBody ss headerSection f.headerBody
  headerFits : f.HeaderFits
  constraints : HasBody ss constraintSection f.constraintBody
  constraintsFit : ∀ c ∈ f.constraints, WireConstraint.Fits f.fieldSize c
  constraintCount : f.constraints.length = f.constraintCount
  labels : HasBody ss labelSection f.labelBody
  labelsFit : ∀ n ∈ f.labels, n < capacity 8
  labelCount : f.labels.length = f.labelCount

/-! ### What a step takes -/

/-- Whatever the step gives is fit, and the bytes that it took are the layout of what it gives. -/
def Step.Takes {α : Type} (s : Step α) (layout : α → Bytes) (fit : α → Prop) : Prop :=
  ∀ c a d, s c = .ok (a, d) → fit a ∧ c.rest = layout a ++ d.rest

/-- A number is taken from its bytes, and every row of bytes of the width is one of a number. -/
theorem number_takes (width : Nat) :
    Step.Takes (number width) (littleEndian width) (· < capacity width) := by
  intro c n d h
  obtain ⟨bytes, e, taken, h⟩ := Step.bind_eq_ok.1 h
  obtain ⟨rfl, rfl⟩ := Step.pure_eq_ok.1 h
  obtain ⟨rfl, parts, -⟩ := take_eq_ok.1 taken
  rw [littleEndian_ofLittleEndian]
  exact ⟨ofLittleEndian_lt_capacity bytes, parts⟩

theorem require_takes (holds : Bool) (error : FormatError) :
    Step.Takes (require holds error) (fun _ => []) (fun _ => holds = true) := by
  intro c a d h
  unfold require at h
  cases holds with
  | false => cases h
  | true =>
    obtain ⟨-, rfl⟩ := Step.pure_eq_ok.1 h
    exact ⟨rfl, rfl⟩

/-- At the end of the data nothing remains. -/
theorem requireEnd_takes (error : FormatError) (c d : Cursor) (a : Unit)
    (h : requireEnd error c = .ok (a, d)) : c.rest = [] ∧ d.rest = [] := by
  obtain ⟨here, e, got, h⟩ := Step.bind_eq_ok.1 h
  cases got
  obtain ⟨ended, same⟩ := require_takes _ error c a d h
  have empty : c.rest = [] := List.isEmpty_iff.1 ended
  have unmoved : c.rest = d.rest := same
  exact ⟨empty, unmoved.symm.trans empty⟩

theorem readTerms_takes (width count : Nat) :
    Step.Takes (readTerms width count) (fun a => a.flatMap (termBytes width))
      (fun a => a.length = count ∧ ∀ t ∈ a, t.1 < capacity 4 ∧ t.2 < capacity width) := by
  induction count with
  | zero =>
    intro c a d h
    obtain ⟨rfl, rfl⟩ := Step.pure_eq_ok.1 h
    exact ⟨⟨rfl, fun _ member => absurd member List.not_mem_nil⟩, rfl⟩
  | succ count ih =>
    intro c a d h
    obtain ⟨wire, c₁, h₁, h⟩ := Step.bind_eq_ok.1 h
    obtain ⟨coeff, c₂, h₂, h⟩ := Step.bind_eq_ok.1 h
    obtain ⟨others, c₃, h₃, h⟩ := Step.bind_eq_ok.1 h
    obtain ⟨rfl, rfl⟩ := Step.pure_eq_ok.1 h
    obtain ⟨wire_fits, first⟩ := number_takes 4 _ _ _ h₁
    obtain ⟨coeff_fits, second⟩ := number_takes width _ _ _ h₂
    obtain ⟨⟨rfl, fits⟩, later⟩ := ih _ _ _ h₃
    refine ⟨⟨rfl, List.forall_mem_cons.2 ⟨⟨wire_fits, coeff_fits⟩, fits⟩⟩, ?_⟩
    rw [first, second, later]
    simp only [List.flatMap_cons, termBytes, List.append_assoc]

/-- The count of terms is taken first and decides how many follow. -/
theorem readComb_takes (width : Nat) :
    Step.Takes (readComb width) (WireComb.bytes width) (WireComb.Fits width) := by
  intro c a d h
  obtain ⟨count, c₁, h₁, h⟩ := Step.bind_eq_ok.1 h
  obtain ⟨count_fits, first⟩ := number_takes 4 _ _ _ h₁
  obtain ⟨⟨rfl, fits⟩, later⟩ := readTerms_takes width _ _ _ _ h
  refine ⟨⟨count_fits, fits⟩, ?_⟩
  rw [first, later, WireComb.bytes, List.append_assoc]

theorem readConstraint_takes (width : Nat) :
    Step.Takes (readConstraint width) (WireConstraint.bytes width) (WireConstraint.Fits width) := by
  intro c a d h
  obtain ⟨left, c₁, h₁, h⟩ := Step.bind_eq_ok.1 h
  obtain ⟨right, c₂, h₂, h⟩ := Step.bind_eq_ok.1 h
  obtain ⟨lin, c₃, h₃, h⟩ := Step.bind_eq_ok.1 h
  obtain ⟨rfl, rfl⟩ := Step.pure_eq_ok.1 h
  obtain ⟨left_fits, first⟩ := readComb_takes width _ _ _ h₁
  obtain ⟨right_fits, second⟩ := readComb_takes width _ _ _ h₂
  obtain ⟨lin_fits, third⟩ := readComb_takes width _ _ _ h₃
  refine ⟨⟨left_fits, right_fits, lin_fits⟩, ?_⟩
  rw [first, second, third, WireConstraint.bytes, List.append_assoc, List.append_assoc]

/-- The loop over constraints takes the layout of all of them. -/
theorem readConstraints_takes (width : Nat) (c : Cursor) (cs : List WireConstraint)
    (h : readConstraints width c = .ok cs) :
    (∀ x ∈ cs, WireConstraint.Fits width x) ∧
      c.rest = cs.flatMap (WireConstraint.bytes width) := by
  fun_induction readConstraints width c generalizing cs with
  | case1 c ended =>
    cases h
    exact ⟨fun _ member => absurd member List.not_mem_nil, List.isEmpty_iff.1 ended⟩
  | case2 c more error failed => cases h
  | case3 c more x d step ih =>
    obtain ⟨rest, read, rfl⟩ := Except.map_eq_ok.1 h
    obtain ⟨fits, first⟩ := readConstraint_takes width _ _ _ step
    obtain ⟨others, later⟩ := ih rest read
    exact ⟨List.forall_mem_cons.2 ⟨fits, others⟩, by rw [first, later, List.flatMap_cons]⟩

/-- The loop over labels takes the layout of all of them. -/
theorem readLabels_takes (c : Cursor) (ns : List Nat) (h : readLabels c = .ok ns) :
    (∀ n ∈ ns, n < capacity 8) ∧ c.rest = ns.flatMap (littleEndian 8) := by
  fun_induction readLabels c generalizing ns with
  | case1 c ended =>
    cases h
    exact ⟨fun _ member => absurd member List.not_mem_nil, List.isEmpty_iff.1 ended⟩
  | case2 c more error failed => cases h
  | case3 c more n d step ih =>
    obtain ⟨rest, read, rfl⟩ := Except.map_eq_ok.1 h
    obtain ⟨fits, first⟩ := number_takes 8 _ _ _ step
    obtain ⟨others, later⟩ := ih rest read
    exact ⟨List.forall_mem_cons.2 ⟨fits, others⟩, by rw [first, later, List.flatMap_cons]⟩

/-! ### Sections -/

theorem findSection?_isNone (ss : List Section) (type : Nat) :
    (findSection? ss type).isNone = true ↔ type ∉ ss.map Section.type := by
  unfold findSection?
  rw [Option.isNone_iff_eq_none, List.find?_eq_none, List.mem_map]
  simp only [decide_eq_true_eq, not_exists, not_and]

/-- The sections that are read come after those already found, and none repeats a type. -/
theorem readSections_takes (count : Nat) (found ss : List Section) (c d : Cursor)
    (h : readSections count found c = .ok (ss, d)) (distinct : (found.map Section.type).Nodup) :
    ∃ more, ss = found ++ more ∧ more.length = count ∧ (∀ s ∈ more, s.WellFormed) ∧
      (ss.map Section.type).Nodup ∧ c.rest = more.flatMap Section.bytes ++ d.rest := by
  induction count generalizing found c with
  | zero =>
    obtain ⟨rfl, rfl⟩ := Step.pure_eq_ok.1 h
    exact ⟨[], (List.append_nil _).symm, rfl, fun _ member => absurd member List.not_mem_nil,
      distinct, rfl⟩
  | succ count ih =>
    obtain ⟨type, c₁, h₁, h⟩ := Step.bind_eq_ok.1 h
    obtain ⟨size, c₂, h₂, h⟩ := Step.bind_eq_ok.1 h
    obtain ⟨_, c₃, h₃, h⟩ := Step.bind_eq_ok.1 h
    obtain ⟨body, c₄, h₄, h⟩ := Step.bind_eq_ok.1 h
    obtain ⟨type_fits, first⟩ := number_takes 4 _ _ _ h₁
    obtain ⟨size_fits, second⟩ := number_takes 8 _ _ _ h₂
    obtain ⟨fresh, third⟩ := require_takes _ _ _ _ _ h₃
    obtain ⟨rfl, fourth, -⟩ := take_eq_ok.1 h₄
    have still_distinct :
        ((found ++ [(⟨type, body.length, body⟩ : Section)]).map Section.type).Nodup := by
      rw [List.map_append, List.nodup_append]
      refine ⟨distinct, List.nodup_cons.2 ⟨List.not_mem_nil, List.nodup_nil⟩, ?_⟩
      intro a a_member b b_member same
      rw [List.map_singleton, List.mem_singleton] at b_member
      rw [same, b_member] at a_member
      exact (findSection?_isNone found type).1 fresh a_member
    obtain ⟨more, rfl, rfl, formed, all_distinct, rest⟩ := ih _ _ h still_distinct
    refine ⟨⟨type, body.length, body⟩ :: more, ?_, rfl, ?_, all_distinct, ?_⟩
    · rw [List.append_assoc, List.singleton_append]
    · exact List.forall_mem_cons.2 ⟨⟨type_fits, size_fits, rfl⟩, formed⟩
    · rw [first, second, third, List.nil_append, fourth, rest, List.flatMap_cons, Section.bytes]
      simp only [List.append_assoc]

/-- What the reader takes for the sections of a file is a container to the last byte. -/
theorem readContainer_eq_ok (bytes : Bytes) (ss : List Section) :
    (∃ d, readContainer (ofBytes bytes) = .ok (ss, d)) ↔ Container ss ∧ bytes = containerBytes ss := by
  constructor
  · rintro ⟨d, h⟩
    obtain ⟨mark, c₁, h₁, h⟩ := Step.bind_eq_ok.1 h
    obtain ⟨_, c₂, h₂, h⟩ := Step.bind_eq_ok.1 h
    obtain ⟨version, c₃, h₃, h⟩ := Step.bind_eq_ok.1 h
    obtain ⟨_, c₄, h₄, h⟩ := Step.bind_eq_ok.1 h
    obtain ⟨count, c₅, h₅, h⟩ := Step.bind_eq_ok.1 h
    obtain ⟨found, c₆, h₆, h⟩ := Step.bind_eq_ok.1 h
    obtain ⟨_, c₇, h₇, h⟩ := Step.bind_eq_ok.1 h
    obtain ⟨rfl, rfl⟩ := Step.pure_eq_ok.1 h
    obtain ⟨-, first, -⟩ := take_eq_ok.1 h₁
    obtain ⟨is_magic, second⟩ := require_takes _ _ _ _ _ h₂
    obtain ⟨-, third⟩ := number_takes 4 _ _ _ h₃
    obtain ⟨is_version, fourth⟩ := require_takes _ _ _ _ _ h₄
    obtain ⟨count_fits, fifth⟩ := number_takes 4 _ _ _ h₅
    obtain ⟨more, rfl, rfl, formed, distinct, sixth⟩ :=
      readSections_takes _ _ _ _ _ h₆ List.nodup_nil
    obtain ⟨ended, -⟩ := requireEnd_takes _ _ _ _ h₇
    refine ⟨⟨count_fits, formed, distinct⟩, ?_⟩
    change bytes = _ at first
    rw [first, second, third, fourth, fifth, sixth, ended, of_decide_eq_true is_magic,
      of_decide_eq_true is_version]
    simp only [containerBytes, List.nil_append, List.append_nil]
  · rintro ⟨container, rfl⟩
    have read := readContainer_readsWhole ss container.count container.formed container.distinct 0
    exact ⟨_, read⟩

/-- Of sections with different types, the body that is found is the only one of its type. -/
theorem requireSection_eq_ok (ss : List Section) (distinct : (ss.map Section.type).Nodup)
    (type : Nat) (body : Bytes) :
    requireSection ss type = .ok body ↔ HasBody ss type body := by
  unfold requireSection HasBody findSection?
  constructor
  · intro h
    split at h
    · rename_i s found
      cases h
      have type_eq := List.find?_some found
      exact ⟨s, List.mem_of_find?_eq_some found, of_decide_eq_true type_eq, rfl⟩
    · cases h
  · rintro ⟨s, member, rfl, rfl⟩
    -- The first section of the type is the only one.
    cases found : ss.find? fun t => decide (t.type = s.type) with
    | none => simpa using List.find?_eq_none.1 found s member
    | some t =>
      have found_type := List.find?_some found
      have same_type : t.type = s.type := of_decide_eq_true found_type
      have same := List.inj_on_of_nodup_map distinct (List.mem_of_find?_eq_some found) member same_type
      rw [same]

/-! ### Bodies -/

/-- The header that is read is the one that was laid out. -/
theorem readHeader_takes (sizes : List (Nat × Nat)) (body : Bytes) (f : File) (d : Cursor)
    (h : readHeader sizes (ofBytes body) = .ok (f, d)) :
    body = f.headerBody ∧ f.HeaderFits ∧ f.version = formatVersion ∧ f.sectionSizes = sizes := by
  obtain ⟨fieldSize, c₁, h₁, h⟩ := Step.bind_eq_ok.1 h
  obtain ⟨prime, c₂, h₂, h⟩ := Step.bind_eq_ok.1 h
  obtain ⟨wireCount, c₃, h₃, h⟩ := Step.bind_eq_ok.1 h
  obtain ⟨publicOutputs, c₄, h₄, h⟩ := Step.bind_eq_ok.1 h
  obtain ⟨publicInputs, c₅, h₅, h⟩ := Step.bind_eq_ok.1 h
  obtain ⟨privateInputs, c₆, h₆, h⟩ := Step.bind_eq_ok.1 h
  obtain ⟨labelCount, c₇, h₇, h⟩ := Step.bind_eq_ok.1 h
  obtain ⟨constraintCount, c₈, h₈, h⟩ := Step.bind_eq_ok.1 h
  obtain ⟨_, c₉, h₉, h⟩ := Step.bind_eq_ok.1 h
  obtain ⟨rfl, rfl⟩ := Step.pure_eq_ok.1 h
  obtain ⟨fits₁, first⟩ := number_takes _ _ _ _ h₁
  obtain ⟨fits₂, second⟩ := number_takes _ _ _ _ h₂
  obtain ⟨fits₃, third⟩ := number_takes _ _ _ _ h₃
  obtain ⟨fits₄, fourth⟩ := number_takes _ _ _ _ h₄
  obtain ⟨fits₅, fifth⟩ := number_takes _ _ _ _ h₅
  obtain ⟨fits₆, sixth⟩ := number_takes _ _ _ _ h₆
  obtain ⟨fits₇, seventh⟩ := number_takes _ _ _ _ h₇
  obtain ⟨fits₈, eighth⟩ := number_takes _ _ _ _ h₈
  obtain ⟨ended, -⟩ := requireEnd_takes _ _ _ _ h₉
  refine ⟨?_, ⟨fits₁, fits₂, fits₃, fits₄, fits₅, fits₆, fits₇, fits₈⟩, rfl, rfl⟩
  change body = _ at first
  rw [first, second, third, fourth, fifth, sixth, seventh, eighth, ended, List.append_nil]
  rfl

theorem checkCounts_eq_ok (f g : File) :
    checkCounts f = .ok g ↔
      f.constraints.length = f.constraintCount ∧ f.labels.length = f.labelCount ∧ f = g := by
  unfold checkCounts
  by_cases constraints : f.constraints.length = f.constraintCount
  · by_cases labels : f.labels.length = f.labelCount <;> simp [constraints, labels]
  · simp [constraints]

/-- Whatever sections spell has room in the layout of a file, whose sections are some of them. -/
theorem File.Spells.fits {f : File} {ss : List Section} (spells : f.Spells ss)
    (container : Container ss) : f.Fits := by
  have size_fits : ∀ type body, HasBody ss type body → body.length < capacity 8 := by
    rintro type body ⟨s, member, -, rfl⟩
    have formed := container.formed s member
    exact formed.size_eq ▸ formed.size_fits
  exact {
    fieldSize := spells.headerFits.fieldSize
    prime := spells.headerFits.prime
    wireCount := spells.headerFits.wireCount
    publicOutputs := spells.headerFits.publicOutputs
    publicInputs := spells.headerFits.publicInputs
    privateInputs := spells.headerFits.privateInputs
    labelCount := spells.headerFits.labelCount
    constraintCount := spells.headerFits.constraintCount
    constraints := spells.constraintsFit
    labels := spells.labelsFit
    sizes := (f.forall_mem_sections _).2 ⟨size_fits _ _ spells.constraints,
      size_fits _ _ spells.header, size_fits _ _ spells.labels⟩ }

/-- The bodies of a container are read as the file that they spell, and as nothing else. -/
theorem readBodies_eq_ok (ss : List Section) (container : Container ss) (f : File) :
    readBodies ss = .ok f ↔ f.Spells ss := by
  have body := requireSection_eq_ok ss container.distinct
  constructor
  · intro h
    obtain ⟨header, h₁, h⟩ := Except.bind_eq_ok.1 h
    obtain ⟨constraintBody, h₂, h⟩ := Except.bind_eq_ok.1 h
    obtain ⟨labelBody, h₃, h⟩ := Except.bind_eq_ok.1 h
    obtain ⟨⟨declared, d⟩, h₄, h⟩ := Except.bind_eq_ok.1 h
    obtain ⟨constraints, h₅, h⟩ := Except.bind_eq_ok.1 h
    obtain ⟨labels, h₆, h⟩ := Except.bind_eq_ok.1 h
    obtain ⟨constraint_count, label_count, rfl⟩ := (checkCounts_eq_ok _ _).1 h
    obtain ⟨rfl, header_fits, version, sizes⟩ := readHeader_takes _ _ _ _ h₄
    obtain ⟨constraints_fit, rfl⟩ := readConstraints_takes _ _ _ h₅
    obtain ⟨labels_fit, rfl⟩ := readLabels_takes _ _ h₆
    exact {
      version := version
      sectionSizes := sizes
      header := (body _ _).1 h₁
      headerFits := ⟨header_fits.fieldSize, header_fits.prime, header_fits.wireCount,
        header_fits.publicOutputs, header_fits.publicInputs, header_fits.privateInputs,
        header_fits.labelCount, header_fits.constraintCount⟩
      constraints := (body _ _).1 h₂
      constraintsFit := constraints_fit
      constraintCount := constraint_count
      labels := (body _ _).1 h₃
      labelsFit := labels_fit
      labelCount := label_count }
  · intro spells
    have header := File.readHeader_readsWhole f f.sectionSizes (spells.fits container) 0
    rw [← spells.version] at header
    have constraints := readConstraints_bytes f.fieldSize 0 f.constraints spells.constraintsFit
    have labels := readLabels_bytes 0 f.labels spells.labelsFit
    have counts := (checkCounts_eq_ok f f).2 ⟨spells.constraintCount, spells.labelCount, rfl⟩
    rw [spells.sectionSizes] at header
    refine Except.bind_eq_ok.2 ⟨_, (body _ _).2 spells.header, ?_⟩
    refine Except.bind_eq_ok.2 ⟨_, (body _ _).2 spells.constraints, ?_⟩
    refine Except.bind_eq_ok.2 ⟨_, (body _ _).2 spells.labels, ?_⟩
    refine Except.bind_eq_ok.2 ⟨_, header, ?_⟩
    refine Except.bind_eq_ok.2 ⟨_, constraints, ?_⟩
    refine Except.bind_eq_ok.2 ⟨_, labels, ?_⟩
    rw [← spells.sectionSizes]
    exact counts

/-- A file is read from bytes exactly when these are a container whose sections spell it. -/
theorem File.read_eq_ok (bytes : Bytes) (f : File) :
    File.read bytes = .ok f ↔
      ∃ ss, Container ss ∧ bytes = containerBytes ss ∧ f.Spells ss := by
  constructor
  · intro h
    obtain ⟨⟨ss, d⟩, read, bodies⟩ := Except.bind_eq_ok.1 h
    obtain ⟨container, layout⟩ := (readContainer_eq_ok bytes ss).1 ⟨d, read⟩
    exact ⟨ss, container, layout, (readBodies_eq_ok ss container f).1 bodies⟩
  · rintro ⟨ss, container, layout, spells⟩
    obtain ⟨d, read⟩ := (readContainer_eq_ok bytes ss).2 ⟨container, layout⟩
    exact Except.bind_eq_ok.2 ⟨(ss, d), read, (readBodies_eq_ok ss container f).2 spells⟩

/-- The reader gives exactly the file that bytes spell, and refuses with an error of the format exactly
the bytes that spell none. -/
theorem File.read_outcome (bytes : Bytes) :
    (∀ f, File.read bytes = .ok f ↔
      ∃ ss, Container ss ∧ bytes = containerBytes ss ∧ f.Spells ss) ∧
    ((∃ error : FormatError, File.read bytes = .error error) ↔
      ¬ ∃ (f : File) (ss : List Section), Container ss ∧ bytes = containerBytes ss ∧ f.Spells ss) := by
  refine ⟨File.read_eq_ok bytes, ?_⟩
  cases outcome : File.read bytes with
  | error error =>
    refine iff_of_true ⟨error, rfl⟩ ?_
    rintro ⟨f, spelled⟩
    rw [(File.read_eq_ok bytes f).2 spelled] at outcome
    cases outcome
  | ok f =>
    refine iff_of_false (fun ⟨_, failed⟩ => nomatch failed) ?_
    exact not_not_intro ⟨f, (File.read_eq_ok bytes f).1 outcome⟩

/-- A file with coefficients of no bytes, such as no writer produces. -/
def foreignFile : File where
  version := 1
  fieldSize := 0
  prime := 0
  wireCount := 1
  publicOutputs := 0
  publicInputs := 0
  privateInputs := 0
  labelCount := 1
  constraintCount := 1
  constraints := [([(0, 0)], [], [])]
  labels := [7]
  sectionSizes := [(9, 1), (1, 32), (3, 8), (2, 16)]

/-- Its sections behind one of unknown type, in another order than they are written in. -/
def foreignSections : List Section :=
  [⟨9, 1, [255]⟩, File.sectionOf headerSection foreignFile.headerBody,
    File.sectionOf labelSection foreignFile.labelBody,
    File.sectionOf constraintSection foreignFile.constraintBody]

theorem container_foreign : Container foreignSections where
  count := by decide
  formed := by
    have formed : ∀ s ∈ foreignSections, s.type < 10 ∧ s.size < 33 ∧ s.size = s.body.length := by
      decide
    intro s member
    obtain ⟨type, size, exact_size⟩ := formed s member
    exact ⟨Nat.lt_trans type (by decide), Nat.lt_trans size (by decide), exact_size⟩
  distinct := by decide

theorem spells_foreign : foreignFile.Spells foreignSections where
  version := rfl
  sectionSizes := by decide
  header := ⟨_, .tail _ (.head _), rfl, rfl⟩
  headerFits := by constructor <;> decide
  constraints := ⟨_, .tail _ (.tail _ (.tail _ (.head _))), rfl, rfl⟩
  constraintsFit := by decide
  constraintCount := rfl
  labels := ⟨_, .tail _ (.tail _ (.head _)), rfl, rfl⟩
  labelsFit := by decide
  labelCount := rfl

theorem read_outcome_foreign :
    File.read (containerBytes foreignSections) = .ok foreignFile ∧
      ∃ error, File.read [] = .error error := by
  constructor
  · exact ((File.read_outcome _).1 foreignFile).2
      ⟨foreignSections, container_foreign, rfl, spells_foreign⟩
  · refine (File.read_outcome []).2.2 ?_
    rintro ⟨f, ss, -, layout, -⟩
    cases layout

end Circuit.R1cs

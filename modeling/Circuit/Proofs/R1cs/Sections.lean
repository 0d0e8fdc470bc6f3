import Mathlib.Data.List.Perm.Basic
import Circuit.Proofs.R1cs.Grammar

/-!
# The order of sections, and sections of unknown type

What a file says stands in three of its sections, and the reader looks for these by their types. Where they stand
among the sections, and which others there are, shows in the list of section sizes and nowhere else.

* `Knows` says that two rows of sections have the same ones of the known types; `Pads` puts sections of other types
  into a row.
* `File.Spells.of_knows`: such rows spell the same file, but for the sizes.
* `File.read_rearranged` says what becomes of a file whose sections are put into another order, or that gains or
  loses sections of unknown type.
-/

namespace Circuit.R1cs

def knownTypes : List Nat := [headerSection, constraintSection, labelSection]

def sizesOf (ss : List Section) : List (Nat × Nat) := ss.map fun s => (s.type, s.size)

/-- Two rows have the same sections of known types. -/
def Knows (ss tt : List Section) : Prop := ∀ s : Section, s.type ∈ knownTypes → (s ∈ ss ↔ s ∈ tt)

/-- The second row is the first one with sections of unknown type put in between. -/
def Pads (ss tt : List Section) : Prop := ss.Sublist tt ∧ ∀ s ∈ tt, s ∉ ss → s.type ∉ knownTypes

variable {ss tt : List Section}

theorem Knows.symm (knows : Knows ss tt) : Knows tt ss := fun s known => (knows s known).symm

theorem knows_of_perm (perm : tt.Perm ss) : Knows ss tt := fun _ _ => perm.mem_iff.symm

/-- Sections of unknown type are not looked at. -/
theorem knows_of_pads (pads : Pads ss tt) : Knows ss tt := by
  intro s known
  refine ⟨fun member => pads.1.subset member, fun member => ?_⟩
  by_contra absent
  exact pads.2 s member absent known

theorem hasBody_congr (knows : Knows ss tt) {type : Nat} (known : type ∈ knownTypes) (body : Bytes) :
    HasBody ss type body ↔ HasBody tt type body := by
  unfold HasBody
  refine exists_congr fun s => and_congr_left fun ⟨type_eq, _⟩ => ?_
  subst type_eq
  exact knows s known

/-! ### Rows of sections -/

/-- Which sections a file has is no matter of how it is read. -/
theorem eq_of_containerBytes_eq (ss_container : Container ss) (tt_container : Container tt)
    (same : containerBytes ss = containerBytes tt) : ss = tt := by
  obtain ⟨_, first⟩ := (readContainer_eq_ok (containerBytes ss) ss).2 ⟨ss_container, rfl⟩
  obtain ⟨_, second⟩ := (readContainer_eq_ok (containerBytes ss) tt).2 ⟨tt_container, same⟩
  rw [first] at second
  exact congrArg Prod.fst (Except.ok.inj second)

theorem Container.perm (container : Container ss) (perm : tt.Perm ss) : Container tt where
  count := perm.length_eq ▸ container.count
  formed := fun s member => container.formed s (perm.mem_iff.1 member)
  distinct := (perm.map Section.type).nodup_iff.2 container.distinct

theorem Container.sublist (container : Container ss) (part : tt.Sublist ss) : Container tt where
  count := Nat.lt_of_le_of_lt part.length_le container.count
  formed := fun s member => container.formed s (part.subset member)
  distinct := (part.map Section.type).nodup container.distinct

/-! ### The mapping of types to sizes -/

theorem lookup_eq_some_iff_mem {rows : List (Nat × Nat)} (distinct : (rows.map Prod.fst).Nodup)
    (type size : Nat) : rows.lookup type = some size ↔ (type, size) ∈ rows := by
  induction rows with
  | nil => simp
  | cons row rest ih =>
    obtain ⟨fresh, later⟩ := List.nodup_cons.1 distinct
    obtain ⟨first, amount⟩ := row
    rw [List.lookup_cons, List.mem_cons]
    by_cases here : type = first
    · subst here
      have absent : (type, size) ∉ rest := fun member => fresh (List.mem_map.2 ⟨_, member, rfl⟩)
      simp [absent, eq_comm]
    · simp [beq_false_of_ne here, here, ih later]

theorem nodup_fst_sizesOf (distinct : (ss.map Section.type).Nodup) : ((sizesOf ss).map Prod.fst).Nodup := by
  unfold sizesOf
  rwa [List.map_map]

theorem mem_sizesOf (ss : List Section) (type size : Nat) :
    (type, size) ∈ sizesOf ss ↔ ∃ s ∈ ss, s.type = type ∧ s.size = size := by
  simp [sizesOf]

/-- Rows with the same sections of a type have the same size for it. -/
theorem lookup_sizesOf_congr (ss_distinct : (ss.map Section.type).Nodup)
    (tt_distinct : (tt.map Section.type).Nodup) {type : Nat}
    (same : ∀ s : Section, s.type = type → (s ∈ ss ↔ s ∈ tt)) :
    (sizesOf tt).lookup type = (sizesOf ss).lookup type := by
  apply Option.ext
  intro size
  rw [lookup_eq_some_iff_mem (nodup_fst_sizesOf tt_distinct),
    lookup_eq_some_iff_mem (nodup_fst_sizesOf ss_distinct), mem_sizesOf, mem_sizesOf]
  refine exists_congr fun s => and_congr_left fun ⟨type_eq, _⟩ => ?_
  exact (same s type_eq).symm

/-! ### Files -/

namespace File

variable {f : File}

/-- Rows with the same sections of known types spell the same, but for the sizes. -/
theorem Spells.of_knows (spells : f.Spells ss) (knows : Knows ss tt) :
    ({ f with sectionSizes := sizesOf tt } : File).Spells tt where
  version := spells.version
  sectionSizes := rfl
  header := (hasBody_congr knows (by decide) _).1 spells.header
  headerFits := ⟨spells.headerFits.fieldSize, spells.headerFits.prime, spells.headerFits.wireCount,
    spells.headerFits.publicOutputs, spells.headerFits.publicInputs, spells.headerFits.privateInputs,
    spells.headerFits.labelCount, spells.headerFits.constraintCount⟩
  constraints := (hasBody_congr knows (by decide) _).1 spells.constraints
  constraintsFit := spells.constraintsFit
  constraintCount := spells.constraintCount
  labels := (hasBody_congr knows (by decide) _).1 spells.labels
  labelsFit := spells.labelsFit
  labelCount := spells.labelCount

/-- The file that comes of other sections, as far as these are known: the same but for the sizes, and the same sizes
for the types whose sections are the same. -/
def RereadAs (f : File) (ss tt : List Section) : Prop :=
  File.read (containerBytes tt) = .ok { f with sectionSizes := sizesOf tt } ∧
    ∀ type, (∀ s : Section, s.type = type → (s ∈ ss ↔ s ∈ tt)) →
      (sizesOf tt).lookup type = f.sectionSizes.lookup type

/-- A reading looks at known sections only, and lists the sizes of all. -/
theorem rereadAs_of_knows (spells : f.Spells ss) (ss_container : Container ss) (tt_container : Container tt)
    (knows : Knows ss tt) : f.RereadAs ss tt := by
  refine ⟨(read_eq_ok _ _).2 ⟨tt, tt_container, rfl, spells.of_knows knows⟩, fun type same => ?_⟩
  rw [spells.sectionSizes]
  exact lookup_sizesOf_congr ss_container.distinct tt_container.distinct same

/-- The bytes of a file are those of one row of sections. In any other order these are read as the same file, with
the same size for every type. With sections of unknown type put in between, as long as a file can have them, and
without some that it had, it is read as the same file too, and only the sizes for the types of those sections
differ. -/
theorem read_rearranged (bytes : Bytes) (f : File) (accepted : File.read bytes = .ok f) :
    ∃ ss, Container ss ∧ bytes = containerBytes ss ∧
      (∀ tt, Container tt → bytes = containerBytes tt → tt = ss) ∧
      (∀ tt, tt.Perm ss → File.read (containerBytes tt) = .ok { f with sectionSizes := sizesOf tt } ∧
        ∀ type, (sizesOf tt).lookup type = f.sectionSizes.lookup type) ∧
      (∀ tt, Container tt → Pads ss tt → f.RereadAs ss tt) ∧
      ∀ tt, Pads tt ss → f.RereadAs ss tt := by
  obtain ⟨ss, container, layout, spells⟩ := (read_eq_ok bytes f).1 accepted
  refine ⟨ss, container, layout, ?_, fun tt perm => ?_, fun tt tt_container pads => ?_, fun tt pads => ?_⟩
  · intro tt tt_container same
    exact eq_of_containerBytes_eq tt_container container (same.symm.trans layout)
  · obtain ⟨read, sizes⟩ := rereadAs_of_knows spells container (container.perm perm) (knows_of_perm perm)
    exact ⟨read, fun type => sizes type fun s _ => perm.mem_iff.symm⟩
  · exact rereadAs_of_knows spells container tt_container (knows_of_pads pads)
  · exact rereadAs_of_knows spells container (container.sublist pads.1) (knows_of_pads pads).symm

/-- The sections of the foreign file the other way round, and without the one of unknown type. -/
theorem read_rearranged_foreign :
    File.read (containerBytes foreignSections) = .ok foreignFile ∧
      File.read (containerBytes foreignSections.reverse) =
        .ok { foreignFile with sectionSizes := [(2, 16), (3, 8), (1, 32), (9, 1)] } ∧
      foreignFile.RereadAs foreignSections foreignSections.tail := by
  have accepted := (read_eq_ok (containerBytes foreignSections) foreignFile).2
    ⟨foreignSections, container_foreign, rfl, spells_foreign⟩
  obtain ⟨ss, -, -, unique, permuted, -, reduced⟩ := read_rearranged _ foreignFile accepted
  obtain rfl := unique foreignSections container_foreign rfl
  obtain ⟨reversed, -⟩ := permuted _ (List.reverse_perm foreignSections)
  refine ⟨accepted, reversed, reduced _ ⟨List.tail_sublist _, ?_⟩⟩
  decide

end File

end Circuit.R1cs

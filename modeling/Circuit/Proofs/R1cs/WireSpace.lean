import Circuit.Proofs.R1cs.RoundTrip

/-!
# The wire space of a file

A file declares how many wires it has, and the count is that of the wires in use. The numbering of the
variables goes on over those that are not in use, so a wire may lie beyond the count.

* `forall_lt_card_iff`: a finite set of numbers lies below its size exactly when it has no gap.
* `read_wireSpace`: the wires of a written file lie in its wire space exactly when the variables in
  use leave no wire out.
* `wireSpace_gap` is a program with a wire beyond the count.
-/

namespace Circuit.R1cs

def File.wires (f : File) : List Nat :=
  (f.constraints.flatMap fun c => (c.1 ++ (c.2.1 ++ c.2.2)).map (·.1)) ++ f.labels

/-- Every wire of a file lies in the wire space that its header declares. -/
def File.InWireSpace (f : File) : Prop := ∀ n ∈ f.wires, n < f.wireCount

/-- The variables in use leave no wire out: below the wire of one of them there are only wires of
others, and the constant wire. -/
def NoGaps (shift : Nat) (constraints : List Constraint) : Prop :=
  ∀ t ∈ constraints.flatMap termsOf, ∀ v : Variable, v.Inside shift → v ≠ .one →
    v.wireNumber shift < t.var.wireNumber shift → ∃ u ∈ constraints.flatMap termsOf, u.var = v

/-- A finite set of numbers lies below its size exactly when it has no gap. -/
theorem forall_lt_card_iff (s : Finset Nat) :
    (∀ n ∈ s, n < s.card) ↔ ∀ n ∈ s, ∀ m < n, m ∈ s := by
  constructor
  · intro below n member m less
    have bounded : s ⊆ Finset.range s.card := fun k k_member => Finset.mem_range.2 (below k k_member)
    -- The set has as many members as there are numbers below its size, so it has all of them.
    have all : s = Finset.range s.card :=
      Finset.eq_of_subset_of_card_le bounded (Finset.card_range s.card).le
    rw [all, Finset.mem_range]
    exact Nat.lt_trans less (below n member)
  · intro closed n member
    have initial : Finset.range (n + 1) ⊆ s := by
      intro m m_member
      rcases Nat.lt_succ_iff_lt_or_eq.1 (Finset.mem_range.1 m_member) with less | rfl
      · exact closed n member m less
      · exact member
    have size := Finset.card_le_card initial
    rw [Finset.card_range] at size
    exact size

section Written

variable (F : Field) (i : Interface) (constraints : List Constraint)

/-- The wires in use, without a repetition. -/
theorem mem_wireSet (shift n : Nat) :
    n ∈ wireSet shift constraints ↔
      n = 0 ∨ ∃ t ∈ constraints.flatMap termsOf, t.var.wireNumber shift = n := by
  unfold wireSet
  rw [Finset.mem_insert, List.mem_toFinset, List.mem_map]

/-- The wires of the constraints of a file are those of the terms. -/
theorem constraintWires_ofConstraints :
    ((File.ofConstraints F i constraints).constraints.flatMap fun c =>
      (c.1 ++ (c.2.1 ++ c.2.2)).map (·.1)) =
      (constraints.flatMap termsOf).map fun t => t.var.wireNumber i.publicCount := by
  unfold File.ofConstraints
  rw [List.flatMap_map, List.map_flatMap]
  refine List.flatMap_congr fun c _ => ?_
  simp only [wireConstraint, wireComb, termsOf_eq, List.map_append, List.map_map]
  rfl

theorem mem_wires_ofConstraints (n : Nat) :
    n ∈ (File.ofConstraints F i constraints).wires ↔ n ∈ wireSet i.publicCount constraints := by
  unfold File.wires
  rw [List.mem_append, constraintWires_ofConstraints, List.mem_map]
  change _ ∨ n ∈ (wireSet i.publicCount constraints).sort ↔ _
  rw [Finset.mem_sort, mem_wireSet]
  exact or_iff_right_of_imp Or.inr

/-- A set of wires without gaps is one of variables without gaps. -/
theorem noGaps_iff (shift : Nat) (inside : AllInside shift constraints) :
    NoGaps shift constraints ↔
      ∀ n ∈ wireSet shift constraints, ∀ m < n, m ∈ wireSet shift constraints := by
  constructor
  · intro gapless n member m less
    rw [mem_wireSet]
    by_cases zero : m = 0
    · exact .inl zero
    · rcases (mem_wireSet constraints shift n).1 member with rfl | ⟨t, t_member, rfl⟩
      · exact absurd less (Nat.not_lt_zero m)
      · have number := Variable.wireNumber_ofWire shift m
        have not_one : Variable.ofWire shift m ≠ .one := by
          intro one
          rw [one] at number
          exact zero number.symm
        obtain ⟨u, u_member, equal⟩ := gapless t t_member _ (Variable.inside_ofWire shift m) not_one
          (number.symm ▸ less)
        exact .inr ⟨u, u_member, by rw [equal, number]⟩
  · intro closed t member v v_inside not_one less
    have used := (mem_wireSet constraints shift _).2 (.inr ⟨t, member, rfl⟩)
    rcases (mem_wireSet constraints shift _).1 (closed _ used _ less) with zero | ⟨u, u_member, same⟩
    · exact absurd (Variable.wireNumber_inj shift v .one v_inside trivial zero) not_one
    · exact ⟨u, u_member, Variable.wireNumber_inj shift u.var v (inside u u_member) v_inside same⟩

/-- The wires lie in the declared space exactly when no wire below them is out of use. -/
theorem inWireSpace_ofConstraints (inside : AllInside i.publicCount constraints) :
    (File.ofConstraints F i constraints).InWireSpace ↔ NoGaps i.publicCount constraints := by
  rw [noGaps_iff constraints _ inside, ← forall_lt_card_iff]
  unfold File.InWireSpace
  simp only [mem_wires_ofConstraints]
  rfl

end Written

/-- A written file labels exactly the wires that occur in it, in ascending order, and its wire count is
that of the labels. The wires lie below this count exactly when the variables in use leave no wire
out. -/
theorem read_wireSpace (F : Field) (p : Program) (bytes : Bytes)
    (written : fileBytes F p = .ok bytes) :
    ∃ f, File.read bytes = .ok f ∧ f.wireCount = f.labels.length ∧ f.labels.Pairwise (· < ·) ∧
      (∀ n ∈ f.wires, n ∈ f.labels) ∧
      (f.InWireSpace ↔ NoGaps p.interface.publicCount p.constraints) := by
  obtain ⟨inside, fits, rfl⟩ := (finished_exportConstraints F p.interface p.constraints bytes).1 written
  refine ⟨_, File.read_bytes _ fits (File.consistent_ofConstraints F _ _), ?_, ?_, ?_, ?_⟩
  · exact (File.length_labels F p.interface p.constraints).symm
  · exact (Finset.sortedLT_sort (wireSet p.interface.publicCount p.constraints)).pairwise
  · intro n member
    exact (Finset.mem_sort _).2 ((mem_wires_ofConstraints F p.interface p.constraints n).1 member)
  · exact inWireSpace_ofConstraints F p.interface p.constraints inside

/-- A program without parameters that says `0 * 0 == 1 * _id`. -/
def loneProgram (id : Nat) (positive : 0 < id) : Program :=
  ⟨⟨[], .number 0⟩, [.constraint
    ⟨⟨LinComb.zero, LinComb.zero⟩, LinComb.ofVariable (.loc id positive) Field.scalars, none⟩]⟩

/-- The file of such a program: the constant wire, and the wire of the local variable. -/
def loneFile (id : Nat) : File where
  version := 1
  fieldSize := 32
  prime := Field.scalars.modulus
  wireCount := 2
  publicOutputs := 0
  publicInputs := 0
  privateInputs := 0
  labelCount := 2
  constraintCount := 1
  constraints := [([], [], [(id, 1)])]
  labels := [0, id]
  sectionSizes := [(2, 48), (1, 64), (3, 16)]

theorem ofConstraints_lone (id : Nat) (positive : 0 < id) :
    File.ofConstraints Field.scalars (loneProgram id positive).interface
      (loneProgram id positive).constraints = loneFile id := by
  have terms : (loneProgram id positive).constraints.flatMap termsOf =
      [⟨.loc id positive, Field.scalars.element 1⟩] := rfl
  have used : wireSet 0 (loneProgram id positive).constraints = [0, id].toFinset := by
    unfold wireSet
    rw [terms]
    simp [Variable.wireNumber]
  have ascending : [0, id].Pairwise (· ≤ ·) := by simp
  have distinct : [0, id].Nodup := by simp [positive.ne]
  have labels : [0, id].toFinset.sort = [0, id] := (List.toFinset_sort (· ≤ ·) distinct).2 ascending
  have size : [0, id].toFinset.card = 2 := List.toFinset_card_of_nodup distinct
  have known : (loneProgram id positive).interface.publicCount = 0 := rfl
  have width : Field.scalars.byteWidth = 32 := by decide
  unfold File.ofConstraints
  rw [known, used, labels, size, width]
  rfl

theorem fits_lone (id : Nat) (small : id < 2 ^ 32) : (loneFile id).Fits where
  fieldSize := (by decide : 32 < Bytes.capacity 4)
  prime := (by decide : Field.scalars.modulus < Bytes.capacity 32)
  wireCount := (by decide : 2 < Bytes.capacity 4)
  publicOutputs := (by decide : 0 < Bytes.capacity 4)
  publicInputs := (by decide : 0 < Bytes.capacity 4)
  privateInputs := (by decide : 0 < Bytes.capacity 4)
  labelCount := (by decide : 2 < Bytes.capacity 8)
  constraintCount := (by decide : 1 < Bytes.capacity 4)
  constraints := by
    have empty : WireComb.Fits 32 [] := by decide
    intro c member
    obtain rfl := List.mem_singleton.1 member
    refine ⟨empty, empty, (by decide : 1 < Bytes.capacity 4), fun t t_member => ?_⟩
    obtain rfl := List.mem_singleton.1 t_member
    exact ⟨small, (by decide : 1 < Bytes.capacity 32)⟩
  labels := by
    have large : 2 ^ 32 < Bytes.capacity 8 := by decide
    intro n member
    rcases List.mem_pair.1 member with rfl | rfl
    · exact (by decide : 0 < Bytes.capacity 8)
    · exact Nat.lt_trans small large
  sizes := by
    have room : 64 < Bytes.capacity 8 := by decide
    rw [File.forall_mem_sections]
    simp only [File.sectionOf, File.length_constraintBody, File.length_headerBody,
      File.length_labelBody]
    exact ⟨Nat.lt_trans (by decide : 48 < 64) room, room, Nat.lt_trans (by decide : 16 < 64) room⟩

/-- The file of a lone variable is written whatever its id is, as long as the wire has room. -/
theorem fileBytes_lone (id : Nat) (positive : 0 < id) (small : id < 2 ^ 32) :
    fileBytes Field.scalars (loneProgram id positive) = .ok (loneFile id).bytes := by
  unfold fileBytes exportProgram
  rw [finished_exportConstraints, ofConstraints_lone]
  refine ⟨fun t member => ?_, fits_lone id small, rfl⟩
  obtain rfl := List.mem_singleton.1 member
  trivial

theorem read_wireSpace_lone :
    fileBytes Field.scalars (loneProgram 1 (by decide)) = .ok (loneFile 1).bytes ∧
      ∃ f, File.read (loneFile 1).bytes = .ok f ∧ f.InWireSpace := by
  have written := fileBytes_lone 1 (by decide) (by decide)
  obtain ⟨f, read, -, -, -, space⟩ := read_wireSpace Field.scalars _ _ written
  refine ⟨written, f, read, space.2 fun t member v inside not_one less => ?_⟩
  obtain rfl := List.mem_singleton.1 member
  -- Below wire 1 there is only the constant wire.
  have zero : v.wireNumber 0 = 0 := Nat.lt_one_iff.1 less
  exact absurd (Variable.wireNumber_inj 0 v .one inside trivial zero) not_one

/-- Two wires are declared, and one of them is wire 5. -/
theorem wireSpace_gap :
    fileBytes Field.scalars (loneProgram 5 (by decide)) = .ok (loneFile 5).bytes ∧
      File.read (loneFile 5).bytes = .ok (loneFile 5) ∧ (loneFile 5).wireCount = 2 ∧
      5 ∈ (loneFile 5).wires ∧ ¬ (loneFile 5).InWireSpace := by
  have consistent := File.consistent_ofConstraints Field.scalars (loneProgram 5 (by decide)).interface
    (loneProgram 5 (by decide)).constraints
  rw [ofConstraints_lone] at consistent
  have member : 5 ∈ (loneFile 5).wires := by decide
  refine ⟨fileBytes_lone 5 _ (by decide), ?_, rfl, member, fun space => ?_⟩
  · exact File.read_bytes _ (fits_lone 5 (by decide)) consistent
  · exact absurd (space 5 member) (by decide)

end Circuit.R1cs

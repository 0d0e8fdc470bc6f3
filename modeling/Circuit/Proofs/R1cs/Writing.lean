import Circuit.Proofs.Field.Width
import Circuit.Proofs.R1cs.Image

/-!
# Writing a file as it is laid out

The writer makes one write for every number, and any of them may fail. Taken together the writes of a
file succeed exactly when every number fits its place, and then they make up its layout.

* `Prints` says under which condition a row of writes succeeds, and what it writes; it composes along
  rows of writes.
* `chunks_prints`: the writes of a program succeed exactly when its file fits, and print its layout.
* `finished_exportConstraints` adds the first pass: a program is written when its variables have wires
  and its file fits.
-/

namespace Circuit.R1cs

open Bytes

namespace Run

theorem finished_eq_ok (r : Run) (out : Bytes) :
    r.finished = .ok out ↔ r.outcome = .ok () ∧ r.bytes = out := by
  unfold finished
  cases r.outcome with
  | error fault => simp [Except.map]
  | ok done => simp [Except.map]

theorem finished_eq_error (r : Run) (fault : Fault) :
    r.finished = .error fault ↔ r.outcome = .error fault := by
  unfold finished
  cases r.outcome with
  | error cause => simp [Except.map]
  | ok done => simp [Except.map]

/-- A run succeeds when its first write and all later ones do. -/
theorem finished_cons_eq_ok (c : Chunk) (cs : List Chunk) (out : Bytes) :
    (ofChunks (c :: cs)).finished = .ok out ↔
      ∃ first later, c = .ok first ∧ (ofChunks cs).finished = .ok later ∧ out = first ++ later := by
  cases c with
  | error fault =>
    constructor
    · intro h
      cases h
    · rintro ⟨first, later, h, -⟩
      cases h
  | ok first =>
    have bytes_cons : (ofChunks (.ok first :: cs)).bytes = first ++ (ofChunks cs).bytes := rfl
    rw [finished_eq_ok, bytes_cons]
    constructor
    · rintro ⟨done, rfl⟩
      exact ⟨first, (ofChunks cs).bytes, rfl, (finished_eq_ok _ _).2 ⟨done, rfl⟩, rfl⟩
    · rintro ⟨same, later, h, h', rfl⟩
      cases h
      obtain ⟨done, rfl⟩ := (finished_eq_ok _ _).1 h'
      exact ⟨done, rfl⟩

/-- Runs follow each other as their bytes do. -/
theorem finished_append_eq_ok (cs ds : List Chunk) (out : Bytes) :
    (ofChunks (cs ++ ds)).finished = .ok out ↔
      ∃ first later, (ofChunks cs).finished = .ok first ∧ (ofChunks ds).finished = .ok later ∧
        out = first ++ later := by
  induction cs generalizing out with
  | nil =>
    constructor
    · intro h
      exact ⟨[], out, rfl, h, rfl⟩
    · rintro ⟨first, later, h, h', rfl⟩
      cases h
      exact h'
  | cons c cs ih =>
    simp only [List.cons_append, finished_cons_eq_ok, ih]
    constructor
    · rintro ⟨first, rest, h, ⟨middle, later, h', h'', rfl⟩, rfl⟩
      exact ⟨first ++ middle, later, ⟨first, middle, h, h', rfl⟩, h'', (List.append_assoc ..).symm⟩
    · rintro ⟨start, later, ⟨first, middle, h, h', rfl⟩, h'', rfl⟩
      exact ⟨first, middle ++ later, h, ⟨middle, later, h', h'', rfl⟩, List.append_assoc ..⟩

/-- A run that fails ends with the fault of one of its writes. -/
theorem mem_of_outcome_eq_error (cs : List Chunk) (fault : Fault)
    (h : (ofChunks cs).outcome = .error fault) : .error fault ∈ cs := by
  induction cs with
  | nil => cases h
  | cons c cs ih =>
    cases c with
    | error other =>
      cases h
      exact List.mem_cons_self
    | ok bytes => exact List.mem_cons_of_mem _ (ih h)

end Run

/-- The writes succeed exactly under the condition, and then write the bytes. -/
def Prints (cs : List Chunk) (fits : Prop) (bytes : Bytes) : Prop :=
  ∀ out, (Run.ofChunks cs).finished = .ok out ↔ fits ∧ out = bytes

namespace Prints

theorem nil : Prints [] True [] := by
  intro out
  constructor
  · intro h
    exact ⟨trivial, (Except.ok.inj h).symm⟩
  · rintro ⟨-, rfl⟩
    rfl

/-- A write succeeds on its own condition, and the row behind it on its own. -/
theorem cons {c : Chunk} {cs : List Chunk} {fits others : Prop} {bytes more : Bytes}
    (here : ∀ out, c = .ok out ↔ fits ∧ out = bytes) (later : Prints cs others more) :
    Prints (c :: cs) (fits ∧ others) (bytes ++ more) := by
  intro out
  rw [Run.finished_cons_eq_ok]
  constructor
  · rintro ⟨first, rest, h, h', rfl⟩
    obtain ⟨fit, rfl⟩ := (here first).1 h
    obtain ⟨fit', rfl⟩ := (later rest).1 h'
    exact ⟨⟨fit, fit'⟩, rfl⟩
  · rintro ⟨⟨fit, fit'⟩, rfl⟩
    exact ⟨bytes, more, (here bytes).2 ⟨fit, rfl⟩, (later more).2 ⟨fit', rfl⟩, rfl⟩

theorem append {cs ds : List Chunk} {fits others : Prop} {bytes more : Bytes}
    (first : Prints cs fits bytes) (later : Prints ds others more) :
    Prints (cs ++ ds) (fits ∧ others) (bytes ++ more) := by
  intro out
  rw [Run.finished_append_eq_ok]
  constructor
  · rintro ⟨start, rest, h, h', rfl⟩
    obtain ⟨fit, rfl⟩ := (first start).1 h
    obtain ⟨fit', rfl⟩ := (later rest).1 h'
    exact ⟨⟨fit, fit'⟩, rfl⟩
  · rintro ⟨⟨fit, fit'⟩, rfl⟩
    exact ⟨bytes, more, (first bytes).2 ⟨fit, rfl⟩, (later more).2 ⟨fit', rfl⟩, rfl⟩

theorem flatMap {α : Type} (xs : List α) (cs : α → List Chunk) (fits : α → Prop)
    (bytes : α → Bytes) (each : ∀ x ∈ xs, Prints (cs x) (fits x) (bytes x)) :
    Prints (xs.flatMap cs) (∀ x ∈ xs, fits x) (xs.flatMap bytes) := by
  induction xs with
  | nil =>
    intro out
    simpa using nil out
  | cons x rest ih =>
    have here := each x List.mem_cons_self
    have later := ih fun y member => each y (List.mem_cons_of_mem x member)
    intro out
    simpa only [List.flatMap_cons, List.forall_mem_cons] using here.append later out

theorem congr {cs : List Chunk} {fits fits' : Prop} {bytes bytes' : Bytes}
    (h : Prints cs fits bytes) (same_fits : fits ↔ fits') (same_bytes : bytes = bytes') :
    Prints cs fits' bytes' := by
  subst same_bytes
  intro out
  rw [h out, same_fits]

end Prints

/-- Writes without a condition. -/
theorem chunk_ok (bytes out : Bytes) : (.ok bytes : Chunk) = .ok out ↔ True ∧ out = bytes := by
  simp [eq_comm]

theorem termChunks_prints (shift width : Nat) (t : Term) (inside : t.var.Inside shift) :
    Prints (termChunks shift width t)
      (t.var.wireNumber shift < capacity 4 ∧ t.coeff.value < capacity width)
      (termBytes width (t.var.wireNumber shift, t.coeff.value)) := by
  have wire := Variable.wire_of_inside shift t.var inside
  have coefficient := Prints.cons (fit_eq_ok width t.coeff.value) Prints.nil
  unfold termChunks
  rw [wire]
  refine (Prints.cons (word_eq_ok 4 (t.var.wireNumber shift)) coefficient).congr ?_ ?_
  · rw [and_true]
  · rw [List.append_nil]
    rfl

theorem combChunks_prints (shift width : Nat) (a : LinComb)
    (inside : ∀ t ∈ a.terms, t.var.Inside shift) :
    Prints (combChunks shift width a) (WireComb.Fits width (wireComb shift a))
      (WireComb.bytes width (wireComb shift a)) := by
  have terms := Prints.flatMap a.terms (termChunks shift width) _ _
    fun t member => termChunks_prints shift width t (inside t member)
  refine (Prints.cons (word_eq_ok 4 a.size) terms).congr ?_ ?_
  · unfold WireComb.Fits wireComb LinComb.size
    rw [List.length_map, List.forall_mem_map]
  · unfold WireComb.bytes wireComb LinComb.size
    rw [List.length_map, List.flatMap_map]

/-- A constraint is printed as it is laid out, when its numbers have room there. -/
theorem constraintChunks_prints (shift width : Nat) (c : Constraint)
    (inside : ∀ t ∈ termsOf c, t.var.Inside shift) :
    Prints (constraintChunks shift width c) (WireConstraint.Fits width (wireConstraint shift c))
      (WireConstraint.bytes width (wireConstraint shift c)) := by
  have combs : ∀ a ∈ c.combs, Prints (combChunks shift width a)
      (WireComb.Fits width (wireComb shift a)) (WireComb.bytes width (wireComb shift a)) := by
    intro a member
    apply combChunks_prints
    intro t here
    exact inside t (List.mem_flatMap.2 ⟨a, member, here⟩)
  refine (Prints.flatMap c.combs (combChunks shift width) _ _ combs).congr ?_ ?_
  · rw [Constraint.forall_mem_combs]
    rfl
  · simp only [Constraint.combs, WireConstraint.bytes, wireConstraint, List.flatMap_cons,
      List.flatMap_nil, List.append_nil]

/-- A section prints when its body does, its size being known before. -/
theorem section_prints {type size : Nat} {cs : List Chunk} {fits : Prop} {bytes : Bytes}
    (known : type < capacity 4) (size_eq : size = bytes.length) (body : Prints cs fits bytes) :
    Prints (sectionHead type size ++ cs) (bytes.length < capacity 8 ∧ fits)
      (File.sectionOf type bytes).bytes := by
  subst size_eq
  refine (Prints.cons (word_eq_ok 4 type) (Prints.cons (word_eq_ok 8 bytes.length) body)).congr ?_ rfl
  rw [and_iff_right known]

theorem labels_prints (wires : List Nat) :
    Prints (wires.map word64) (∀ n ∈ wires, n < capacity 8) (wires.flatMap (littleEndian 8)) := by
  have each : ∀ n ∈ wires, Prints [word64 n] (n < capacity 8 ∧ True) (littleEndian 8 n ++ []) :=
    fun n _ => Prints.cons (word_eq_ok 8 n) Prints.nil
  rw [List.map_eq_flatMap]
  refine (Prints.flatMap wires _ _ _ each).congr ?_ ?_
  · simp only [and_true]
  · simp only [List.append_nil]

namespace File

variable (F : Field) (i : Interface) (constraints : List Constraint)

theorem size_wireConstraint (shift : Nat) (c : Constraint) :
    WireConstraint.size (wireConstraint shift c) = (termsOf c).length := by
  rw [termsOf_eq]
  simp only [WireConstraint.size, wireConstraint, wireComb, List.length_map, List.length_append,
    Nat.add_assoc]

/-- The size that the first pass finds is that of the body that the second one writes. -/
theorem length_constraintBody_ofConstraints :
    (ofConstraints F i constraints).constraintBody.length =
      (Sizing.ofConstraints F i constraints).constraintsSize := by
  rw [length_constraintBody]
  simp only [ofConstraints, Sizing.ofConstraints, List.map_map, Function.comp_def,
    size_wireConstraint, Nat.add_comm 4 F.byteWidth]

theorem sectionSize_ofConstraints :
    (Sizing.ofConstraints F i constraints).header.sectionSize = 32 + F.byteWidth := by
  simp only [Header.sectionSize, Sizing.ofConstraints]
  omega

theorem length_labels :
    (ofConstraints F i constraints).labels.length = (wireSet i.publicCount constraints).card := by
  simp only [ofConstraints, Finset.length_sort]

theorem length_labelBody_ofConstraints :
    (ofConstraints F i constraints).labelBody.length =
      8 * (wireSet i.publicCount constraints).card := by
  rw [length_labelBody, length_labels]

/-- The sizes that a program's file declares are those of its sections. -/
theorem sectionSizes_ofConstraints :
    (ofConstraints F i constraints).sectionSizes =
      (ofConstraints F i constraints).sections.map fun s => (s.type, s.size) := by
  unfold sections sectionOf
  simp only [List.map_cons, List.map_nil, length_constraintBody_ofConstraints, length_headerBody,
    length_labelBody_ofConstraints]
  rfl

theorem consistent_ofConstraints : (ofConstraints F i constraints).Consistent where
  version := rfl
  labelCount := (length_labels F i constraints).symm
  constraintCount := (List.length_map _).symm
  sectionSizes := sectionSizes_ofConstraints F i constraints

theorem headerChunks_prints :
    Prints (headerChunks (Sizing.ofConstraints F i constraints).header)
      (F.byteWidth < capacity 4 ∧ (wireSet i.publicCount constraints).card < capacity 4 ∧
        i.returnCount.toNat < capacity 4 ∧ i.publicParameters.length < capacity 4 ∧
        i.privateCount < capacity 4 ∧ (wireSet i.publicCount constraints).card < capacity 8 ∧
        constraints.length < capacity 4)
      (ofConstraints F i constraints).headerBody := by
  have last := Prints.cons (word_eq_ok 4 constraints.length) Prints.nil
  have labels := Prints.cons (word_eq_ok 8 (wireSet i.publicCount constraints).card) last
  have privates := Prints.cons (word_eq_ok 4 i.privateCount) labels
  have inputs := Prints.cons (word_eq_ok 4 i.publicParameters.length) privates
  have outputs := Prints.cons (word_eq_ok 4 i.returnCount.toNat) inputs
  have wires := Prints.cons (word_eq_ok 4 (wireSet i.publicCount constraints).card) outputs
  have prime := Prints.cons (chunk_ok (littleEndian F.byteWidth F.modulus)) wires
  refine (Prints.cons (word_eq_ok 4 F.byteWidth) prime).congr ?_ ?_
  · simp only [true_and, and_true]
  · unfold headerBody
    simp only [List.append_nil]
    rfl

/-- All constraints one behind the other are the body of their section. -/
theorem constraintBody_prints (inside : AllInside i.publicCount constraints) :
    Prints (constraints.flatMap (constraintChunks i.publicCount F.byteWidth))
      (∀ c ∈ (ofConstraints F i constraints).constraints, WireConstraint.Fits F.byteWidth c)
      (ofConstraints F i constraints).constraintBody := by
  have body := Prints.flatMap constraints (constraintChunks i.publicCount F.byteWidth) _ _
    fun c member => constraintChunks_prints i.publicCount F.byteWidth c
      fun t here => inside t (List.mem_flatMap.2 ⟨c, member, here⟩)
  refine body.congr ?_ ?_
  · simp only [ofConstraints, List.forall_mem_map]
  · simp only [constraintBody, ofConstraints, List.flatMap_map]

/-- The writes of a program, section by section. -/
theorem chunks_eq :
    chunks (Sizing.ofConstraints F i constraints) constraints =
      [.ok magic, word32 formatVersion, word32 3] ++
        ((sectionHead constraintSection (Sizing.ofConstraints F i constraints).constraintsSize ++
          constraints.flatMap (constraintChunks i.publicCount F.byteWidth)) ++
        ((sectionHead headerSection (Sizing.ofConstraints F i constraints).header.sectionSize ++
          headerChunks (Sizing.ofConstraints F i constraints).header) ++
        (sectionHead labelSection ((wireSet i.publicCount constraints).card * 8) ++
          (ofConstraints F i constraints).labels.map word64))) := by
  unfold chunks
  simp only [List.append_assoc]
  rfl

/-- The writes of a program whose variables all have wires succeed exactly when its file fits, and
then they are the layout of that file. -/
theorem chunks_prints (inside : AllInside i.publicCount constraints) :
    Prints (chunks (Sizing.ofConstraints F i constraints) constraints)
      (ofConstraints F i constraints).Fits (ofConstraints F i constraints).bytes := by
  have start : Prints [.ok magic, word32 formatVersion, word32 3]
      (True ∧ formatVersion < capacity 4 ∧ 3 < capacity 4 ∧ True)
      (magic ++ (littleEndian 4 formatVersion ++ (littleEndian 4 3 ++ []))) :=
    Prints.cons (chunk_ok magic) (Prints.cons (word_eq_ok 4 formatVersion)
      (Prints.cons (word_eq_ok 4 3) Prints.nil))
  have header_size : (Sizing.ofConstraints F i constraints).header.sectionSize =
      (ofConstraints F i constraints).headerBody.length := by
    rw [sectionSize_ofConstraints, length_headerBody]
    rfl
  have label_size : (wireSet i.publicCount constraints).card * 8 =
      (ofConstraints F i constraints).labelBody.length := by
    rw [length_labelBody_ofConstraints, Nat.mul_comm]
  have constraint_section := section_prints (show constraintSection < capacity 4 by decide)
    (length_constraintBody_ofConstraints F i constraints).symm
    (constraintBody_prints F i constraints inside)
  have header_section := section_prints (show headerSection < capacity 4 by decide) header_size
    (headerChunks_prints F i constraints)
  have label_section := section_prints (show labelSection < capacity 4 by decide) label_size
    (labels_prints (ofConstraints F i constraints).labels)
  -- What is left is that the conditions of the writes, in their order, are those of the file.
  rw [chunks_eq]
  refine (start.append (constraint_section.append (header_section.append label_section))).congr ?_ ?_
  · constructor
    · rintro ⟨-, ⟨constraint_size, each⟩, ⟨header_size, width, wires, outputs, inputs, privates,
        label_count, count⟩, label_size, labels⟩
      exact ⟨width, F.modulus_lt_capacity, wires, outputs, inputs, privates, label_count, count,
        each, labels, (forall_mem_sections _ _).2 ⟨constraint_size, header_size, label_size⟩⟩
    · intro fits
      obtain ⟨constraint_size, header_size, label_size⟩ := (forall_mem_sections _ _).1 fits.sizes
      exact ⟨⟨trivial, by decide, by decide, trivial⟩, ⟨constraint_size, fits.constraints⟩,
        ⟨header_size, fits.fieldSize, fits.wireCount, fits.publicOutputs, fits.publicInputs,
          fits.privateInputs, fits.labelCount, fits.constraintCount⟩, label_size, fits.labels⟩
  · unfold File.bytes sections
    simp only [List.append_nil, List.append_assoc, List.flatMap_cons, List.flatMap_nil]
    rfl

end File

/-- A program's file is written exactly when every variable has a wire and every number fits, and then
it is the layout of the file that the program stands for. -/
theorem finished_exportConstraints (F : Field) (i : Interface) (constraints : List Constraint)
    (out : Bytes) :
    (exportConstraints F i constraints).finished = .ok out ↔
      AllInside i.publicCount constraints ∧ (File.ofConstraints F i constraints).Fits ∧
        out = (File.ofConstraints F i constraints).bytes := by
  unfold exportConstraints exportWith
  by_cases inside : AllInside i.publicCount constraints
  · rw [Sizing.compute_of_inside F i constraints inside]
    rw [and_iff_right inside]
    exact File.chunks_prints F i constraints inside out
  · obtain ⟨before, t, after, split, first, outside⟩ := exists_first_outside _ _ inside
    rw [Sizing.compute_of_outside F i constraints before after t split first outside]
    constructor
    · intro h
      cases h
    · rintro ⟨all, -⟩
      exact absurd all inside

end Circuit.R1cs

import Circuit.Proofs.R1cs.RoundTrip

/-!
# How writing a program ends

A program is written when its public variables lie in the public section and its numbers have room.
A variable outside the section is noticed before anything is written; after that only numbers can
stop a run.

* `HasRoom` and `CoefficientsFit` are the conditions on numbers: `File.fits_ofConstraints`.
* `WriteFault` are the faults that numbers give rise to; `chunks_failsOnly` says that there are no
  others.
* `exportProgram_outcome` puts the three endings together.
-/

namespace Circuit.R1cs

open Bytes

def CoefficientsFit (F : Field) (constraints : List Constraint) : Prop :=
  ∀ t ∈ constraints.flatMap termsOf, t.coeff.value < 256 ^ F.byteWidth

/-- Every number that is no coefficient has room in its place. -/
structure HasRoom (F : Field) (i : Interface) (constraints : List Constraint) : Prop where
  terms : ∀ c ∈ constraints, ∀ a ∈ c.combs, a.size < 2 ^ 32
  wires : ∀ t ∈ constraints.flatMap termsOf, ∀ n, t.var.wire i.publicCount = .ok n → n < 2 ^ 32
  fieldSize : F.byteWidth < 2 ^ 32
  wireCount : (wireSet i.publicCount constraints).card < 2 ^ 32
  returnCount : i.returnCount.toNat < 2 ^ 32
  publicParameters : i.publicParameters.length < 2 ^ 32
  privateParameters : i.privateCount < 2 ^ 32
  constraintCount : constraints.length < 2 ^ 32
  constraintSize :
    (constraints.map fun c => 12 + (termsOf c).length * (F.byteWidth + 4)).sum < 2 ^ 64

/-- The faults of numbers: a coefficient too wide for the field, or another number without room. -/
inductive WriteFault (F : Field) (i : Interface) (constraints : List Constraint) : Fault → Prop
  | tooWide (t : Term) (member : t ∈ constraints.flatMap termsOf)
      (wide : 256 ^ F.byteWidth ≤ t.coeff.value) :
      WriteFault F i constraints (.tooWide t.coeff.value (Decimal.ofNat F.byteWidth))
  | noRoom (crowded : ¬ HasRoom F i constraints) : WriteFault F i constraints .wordOverflow

/-! ### What has to fit -/

section Fits

variable (F : Field) (i : Interface) (constraints : List Constraint)

/-- A constraint has room when its counts, its wires and its coefficients have. -/
theorem wireConstraint_fits (shift width : Nat) (c : Constraint) :
    WireConstraint.Fits width (wireConstraint shift c) ↔
      (∀ a ∈ c.combs, a.size < capacity 4) ∧
        ∀ t ∈ termsOf c, t.var.wireNumber shift < capacity 4 ∧ t.coeff.value < capacity width := by
  have comb : ∀ a : LinComb, WireComb.Fits width (wireComb shift a) ↔ a.size < capacity 4 ∧
      ∀ t ∈ a.terms, t.var.wireNumber shift < capacity 4 ∧ t.coeff.value < capacity width := by
    intro a
    unfold WireComb.Fits wireComb LinComb.size
    rw [List.length_map, List.forall_mem_map]
  unfold WireConstraint.Fits wireConstraint
  simp only [comb, termsOf_eq, Constraint.forall_mem_combs, List.forall_mem_append]
  constructor
  · rintro ⟨⟨left, lefts⟩, ⟨right, rights⟩, lin, lins⟩
    exact ⟨⟨left, right, lin⟩, lefts, rights, lins⟩
  · rintro ⟨⟨left, right, lin⟩, lefts, rights, lins⟩
    exact ⟨⟨left, lefts⟩, ⟨right, rights⟩, lin, lins⟩

variable {F i constraints} in
theorem HasRoom.wireNumber_lt (room : HasRoom F i constraints)
    (inside : AllInside i.publicCount constraints) (t : Term)
    (member : t ∈ constraints.flatMap termsOf) : t.var.wireNumber i.publicCount < 2 ^ 32 :=
  room.wires t member _ (Variable.wire_of_inside _ t.var (inside t member))

variable {F i constraints} in
/-- The labels have room because the wires of the terms have. -/
theorem HasRoom.label_lt (room : HasRoom F i constraints)
    (inside : AllInside i.publicCount constraints) (n : Nat)
    (member : n ∈ (wireSet i.publicCount constraints).sort) : n < 2 ^ 64 := by
  rcases Finset.mem_insert.1 ((Finset.mem_sort _).1 member) with rfl | used
  · decide
  · obtain ⟨t, t_member, rfl⟩ := List.mem_map.1 (List.mem_toFinset.1 used)
    exact Nat.lt_trans (room.wireNumber_lt inside t t_member) (by decide)

variable {F i constraints} in
theorem HasRoom.headerSize_lt (room : HasRoom F i constraints) : 32 + F.byteWidth < 2 ^ 64 := by
  have width := room.fieldSize
  omega

variable {F i constraints} in
theorem HasRoom.labelSize_lt (room : HasRoom F i constraints) :
    8 * (wireSet i.publicCount constraints).card < 2 ^ 64 := by
  have count := room.wireCount
  omega

/-- The file of a program fits under two conditions, one on the coefficients and one on the rest. -/
theorem File.fits_ofConstraints (inside : AllInside i.publicCount constraints) :
    (File.ofConstraints F i constraints).Fits ↔
      CoefficientsFit F constraints ∧ HasRoom F i constraints := by
  constructor
  · intro fits
    have each : ∀ c ∈ constraints, WireConstraint.Fits F.byteWidth (wireConstraint i.publicCount c) :=
      List.forall_mem_map.1 fits.constraints
    have terms : ∀ t ∈ constraints.flatMap termsOf,
        t.var.wireNumber i.publicCount < capacity 4 ∧ t.coeff.value < capacity F.byteWidth := by
      intro t member
      obtain ⟨c, c_member, here⟩ := List.mem_flatMap.1 member
      exact ((wireConstraint_fits _ _ c).1 (each c c_member)).2 t here
    have size := fits.sizes _ List.mem_cons_self
    have length := length_constraintBody_ofConstraints F i constraints
    refine ⟨fun t member => (terms t member).2, ?_⟩
    exact {
      terms := fun c member => ((wireConstraint_fits _ _ c).1 (each c member)).1
      wires := fun t member n has_wire => by
        obtain ⟨-, rfl⟩ := (Variable.wire_eq_ok _ _ _).1 has_wire
        exact (terms t member).1
      fieldSize := fits.fieldSize
      wireCount := fits.wireCount
      returnCount := fits.publicOutputs
      publicParameters := fits.publicInputs
      privateParameters := fits.privateInputs
      constraintCount := fits.constraintCount
      constraintSize := length.symm.trans_lt size }
  · rintro ⟨coefficients, room⟩
    -- The prime, the labels and the other two sizes have no condition of their own.
    exact {
      fieldSize := room.fieldSize
      prime := F.modulus_lt_capacity
      wireCount := room.wireCount
      publicOutputs := room.returnCount
      publicInputs := room.publicParameters
      privateInputs := room.privateParameters
      labelCount := Nat.lt_trans room.wireCount (by decide)
      constraintCount := room.constraintCount
      constraints := List.forall_mem_map.2 fun c member =>
        (wireConstraint_fits _ _ c).2 ⟨room.terms c member, fun t here =>
          have t_member := List.mem_flatMap.2 ⟨c, member, here⟩
          ⟨room.wireNumber_lt inside t t_member, coefficients t t_member⟩⟩
      labels := room.label_lt inside
      sizes := by
        rw [forall_mem_sections]
        simp only [sectionOf, length_constraintBody_ofConstraints, length_headerBody,
          length_labelBody_ofConstraints]
        exact ⟨room.constraintSize, room.headerSize_lt, room.labelSize_lt⟩ }

end Fits

/-! ### What can fail -/

/-- A row of writes that fails with faults of one kind only. -/
def FailsOnly (kind : Fault → Prop) (cs : List Chunk) : Prop :=
  ∀ c ∈ cs, ∀ fault, c = .error fault → kind fault

namespace FailsOnly

variable {kind : Fault → Prop}

theorem nil : FailsOnly kind [] := fun _ member => absurd member List.not_mem_nil

theorem cons {c : Chunk} {cs : List Chunk} (here : ∀ fault, c = .error fault → kind fault)
    (later : FailsOnly kind cs) : FailsOnly kind (c :: cs) :=
  List.forall_mem_cons.2 ⟨here, later⟩

theorem append {cs ds : List Chunk} (first : FailsOnly kind cs) (later : FailsOnly kind ds) :
    FailsOnly kind (cs ++ ds) :=
  List.forall_mem_append.2 ⟨first, later⟩

theorem flatMap {α : Type} (xs : List α) (cs : α → List Chunk)
    (each : ∀ x ∈ xs, FailsOnly kind (cs x)) : FailsOnly kind (xs.flatMap cs) := by
  intro c member
  obtain ⟨x, x_member, here⟩ := List.mem_flatMap.1 member
  exact each x x_member c here

end FailsOnly

section Faults

variable {F : Field} {i : Interface} {constraints : List Constraint}

/-- A number that has room whenever all numbers have stops a run only where some has not. -/
theorem WriteFault.of_word (width n : Nat) (enough : HasRoom F i constraints → n < capacity width)
    (fault : Fault) (failed : word width n = .error fault) : WriteFault F i constraints fault := by
  obtain rfl := word_eq_error width n fault failed
  refine .noRoom fun room => ?_
  rw [(word_eq_ok width n _).2 ⟨enough room, rfl⟩] at failed
  cases failed

/-- Numbers without room are no contradiction in the circuit. -/
theorem WriteFault.not_isInvariant {fault : Fault} (h : WriteFault F i constraints fault) :
    fault.isInvariant = false := by
  cases h with
  | tooWide t member wide => rfl
  | noRoom crowded => rfl

theorem termChunks_failsOnly (t : Term) (member : t ∈ constraints.flatMap termsOf)
    (inside : t.var.Inside i.publicCount) :
    FailsOnly (WriteFault F i constraints) (termChunks i.publicCount F.byteWidth t) := by
  have wire := Variable.wire_of_inside i.publicCount t.var inside
  unfold termChunks
  rw [wire]
  refine .cons (WriteFault.of_word 4 _ fun room => room.wires t member _ wire) (.cons ?_ .nil)
  intro fault failed
  obtain ⟨wide, rfl⟩ := fit_eq_error F.byteWidth t.coeff.value fault failed
  exact .tooWide t member wide

/-- Where every variable has a wire, a constraint is refused for its numbers only. -/
theorem constraintChunks_failsOnly (c : Constraint) (member : c ∈ constraints)
    (inside : AllInside i.publicCount constraints) :
    FailsOnly (WriteFault F i constraints) (constraintChunks i.publicCount F.byteWidth c) := by
  refine .flatMap _ _ fun a a_member => ?_
  refine .cons (WriteFault.of_word 4 a.size fun room => room.terms c member a a_member) ?_
  refine .flatMap _ _ fun t t_member => ?_
  have here := mem_terms member a_member t_member
  exact termChunks_failsOnly t here (inside t here)

theorem sectionHead_failsOnly (type size : Nat) (known : type < capacity 4)
    (enough : HasRoom F i constraints → size < capacity 8) :
    FailsOnly (WriteFault F i constraints) (sectionHead type size) :=
  .cons (WriteFault.of_word 4 type fun _ => known) (.cons (WriteFault.of_word 8 size enough) .nil)

theorem headerChunks_failsOnly :
    FailsOnly (WriteFault F i constraints)
      (headerChunks (Sizing.ofConstraints F i constraints).header) := by
  refine .cons (WriteFault.of_word 4 _ HasRoom.fieldSize) ?_
  refine .cons (fun fault failed => nomatch failed) ?_
  refine .cons (WriteFault.of_word 4 _ HasRoom.wireCount) ?_
  refine .cons (WriteFault.of_word 4 _ HasRoom.returnCount) ?_
  refine .cons (WriteFault.of_word 4 _ HasRoom.publicParameters) ?_
  refine .cons (WriteFault.of_word 4 _ HasRoom.privateParameters) ?_
  refine .cons (WriteFault.of_word 8 _ fun room => Nat.lt_trans room.wireCount (by decide)) ?_
  exact .cons (WriteFault.of_word 4 _ HasRoom.constraintCount) .nil

/-- Where every variable has a wire, only numbers can stop the writes of a program. -/
theorem chunks_failsOnly (inside : AllInside i.publicCount constraints) :
    FailsOnly (WriteFault F i constraints)
      (chunks (Sizing.ofConstraints F i constraints) constraints) := by
  have start : FailsOnly (WriteFault F i constraints) [.ok magic, word32 formatVersion, word32 3] :=
    .cons (fun fault failed => nomatch failed)
      (.cons (WriteFault.of_word 4 formatVersion fun _ => by decide)
        (.cons (WriteFault.of_word 4 3 fun _ => by decide) .nil))
  have constraint_head : FailsOnly (WriteFault F i constraints)
      (sectionHead constraintSection (Sizing.ofConstraints F i constraints).constraintsSize) :=
    sectionHead_failsOnly _ _ (by decide) HasRoom.constraintSize
  have body : FailsOnly (WriteFault F i constraints)
      (constraints.flatMap (constraintChunks i.publicCount F.byteWidth)) :=
    .flatMap _ _ fun c member => constraintChunks_failsOnly c member inside
  have header_head : FailsOnly (WriteFault F i constraints)
      (sectionHead headerSection (Sizing.ofConstraints F i constraints).header.sectionSize) := by
    refine sectionHead_failsOnly _ _ (by decide) fun room => ?_
    rw [File.sectionSize_ofConstraints]
    exact room.headerSize_lt
  have label_head : FailsOnly (WriteFault F i constraints)
      (sectionHead labelSection ((wireSet i.publicCount constraints).card * 8)) := by
    refine sectionHead_failsOnly _ _ (by decide) fun room => ?_
    rw [Nat.mul_comm]
    exact room.labelSize_lt
  have labels : FailsOnly (WriteFault F i constraints)
      ((File.ofConstraints F i constraints).labels.map word64) := by
    intro c member
    obtain ⟨n, n_member, rfl⟩ := List.mem_map.1 member
    exact WriteFault.of_word 8 n fun room => room.label_lt inside n n_member
  rw [File.chunks_eq]
  exact start.append ((constraint_head.append body).append
    ((header_head.append headerChunks_failsOnly).append (label_head.append labels)))

end Faults

/-! ### The three endings -/

/-- The file is written exactly if wires, coefficients and all other numbers allow it. -/
theorem outcome_eq_ok_iff (F : Field) (p : Program) :
    (exportProgram F p).outcome = .ok () ↔
      AllInside p.interface.publicCount p.constraints ∧ CoefficientsFit F p.constraints ∧
        HasRoom F p.interface p.constraints := by
  have written := finished_exportConstraints F p.interface p.constraints
  constructor
  · intro success
    obtain ⟨inside, fits, -⟩ := (written _).1 ((Run.finished_eq_ok _ _).2 ⟨success, rfl⟩)
    exact ⟨inside, (File.fits_ofConstraints F p.interface p.constraints inside).1 fits⟩
  · rintro ⟨inside, room⟩
    have fits := (File.fits_ofConstraints F p.interface p.constraints inside).2 room
    exact ((Run.finished_eq_ok _ _).1 ((written _).2 ⟨inside, fits, rfl⟩)).1

/-- After the first pass only numbers can stop a run. -/
theorem writeFault_of_outcome (F : Field) (p : Program)
    (inside : AllInside p.interface.publicCount p.constraints) (fault : Fault)
    (failed : (exportProgram F p).outcome = .error fault) :
    WriteFault F p.interface p.constraints fault := by
  unfold exportProgram exportConstraints exportWith at failed
  rw [Sizing.compute_of_inside F _ _ inside] at failed
  exact chunks_failsOnly inside _ (Run.mem_of_outcome_eq_error _ fault failed) fault rfl

/-- Once every variable has a wire, no failure speaks of the circuit. -/
theorem not_isInvariant_of_inside {F : Field} {p : Program}
    (inside : AllInside p.interface.publicCount p.constraints) {fault : Fault}
    (failed : fileBytes F p = .error fault) : fault.isInvariant = false := by
  have ended := (Run.finished_eq_error _ fault).1 failed
  exact (writeFault_of_outcome F p inside fault ended).not_isInvariant

/-- The first variable outside the public section ends the run before anything is written. -/
theorem exportProgram_of_outside (F : Field) (p : Program) (before after : List Term) (index : Nat)
    (coeff : Element) (split : p.constraints.flatMap termsOf = before ++ ⟨.pub index, coeff⟩ :: after)
    (inside : ∀ u ∈ before, u.var.Inside p.interface.publicCount)
    (outside : p.interface.publicCount < index + 1)
    (short : index + 1 < 10 ^ Decimal.digitLimit) :
    exportProgram F p = ⟨[], .error
      (.outsidePublic (.pub index) (index + 1) (Decimal.ofNat p.interface.publicCount))⟩ := by
  have writable : Decimal.isWritable ((index : Int) + 1) = true := by
    have size : ((index : Int) + 1).natAbs = index + 1 := by omega
    simp only [Decimal.isWritable, size, Nat.pow_eq, short, decide_true]
  have stopped := Sizing.compute_of_outside F p.interface p.constraints before after _ split inside
    (Nat.not_le.2 outside)
  unfold exportProgram exportConstraints exportWith
  rw [stopped]
  unfold Variable.outside Variable.index
  rw [if_pos writable]

/-- A program is written exactly when its public variables lie in the public section and its numbers
have room. The first variable outside the section ends the run with a fault of the circuit before
anything is written; otherwise a run that fails does so for a number. -/
theorem exportProgram_outcome (F : Field) (p : Program) :
    ((exportProgram F p).outcome = .ok () ↔
      AllInside p.interface.publicCount p.constraints ∧ CoefficientsFit F p.constraints ∧
        HasRoom F p.interface p.constraints) ∧
    ((∀ t ∈ p.constraints.flatMap termsOf, t.var.index + 1 < 10 ^ Decimal.digitLimit) →
      ¬ AllInside p.interface.publicCount p.constraints →
      ∃ before t after index, p.constraints.flatMap termsOf = before ++ t :: after ∧
        (∀ u ∈ before, u.var.Inside p.interface.publicCount) ∧ t.var = .pub index ∧
        p.interface.publicCount < index + 1 ∧
        exportProgram F p = ⟨[], .error
          (.outsidePublic (.pub index) (index + 1) (Decimal.ofNat p.interface.publicCount))⟩) ∧
    (AllInside p.interface.publicCount p.constraints →
      ∀ fault, (exportProgram F p).outcome = .error fault →
        fault.isInvariant = false ∧ WriteFault F p.interface p.constraints fault) := by
  refine ⟨outcome_eq_ok_iff F p, fun short strays => ?_, fun inside fault failed => ?_⟩
  · obtain ⟨before, ⟨v, coeff⟩, after, split, inside, outside⟩ := exists_first_outside _ _ strays
    cases v with
    | one => exact absurd trivial outside
    | loc id positive => exact absurd trivial outside
    | pub index =>
      have member : (⟨.pub index, coeff⟩ : Term) ∈ p.constraints.flatMap termsOf := by
        rw [split]
        exact List.mem_append_cons_self
      have beyond : p.interface.publicCount < index + 1 := Nat.lt_of_not_le outside
      exact ⟨before, _, after, index, split, inside, rfl, beyond,
        exportProgram_of_outside F p before after index coeff split inside beyond (short _ member)⟩
  · have kind := writeFault_of_outcome F p inside fault failed
    exact ⟨kind.not_isInvariant, kind⟩

/-- The sample with a coefficient that is too wide, before the given public slot. -/
def wideSample (slot : Nat) : Program where
  interface := Program.sample.interface
  statements := [.constraint { Constraint.sample with
    lin := ⟨[⟨.loc 1 Nat.one_pos, Field.wide.element 256⟩, ⟨.pub slot, Field.seven.element 1⟩]⟩ }]

theorem hasRoom_wideSample :
    HasRoom Field.seven (wideSample 1).interface (wideSample 1).constraints where
  terms := by decide
  wires := by
    intro t member n has_wire
    obtain ⟨-, rfl⟩ := (Variable.wire_eq_ok _ _ _).1 has_wire
    have below : ∀ t ∈ (wideSample 1).constraints.flatMap termsOf, t.var.wireNumber 2 < 2 ^ 32 := by
      decide
    exact below t member
  fieldSize := by decide
  wireCount := by decide
  returnCount := by decide
  publicParameters := by decide
  privateParameters := by decide
  constraintCount := by decide
  constraintSize := by decide

theorem exportProgram_outcome_sample :
    ((exportProgram Field.seven Program.sample).outcome = .ok () ∧
      HasRoom Field.seven Program.sample.interface Program.sample.constraints) ∧
    (exportProgram Field.seven (wideSample 1)).outcome = .error (.tooWide 256 "1") ∧
    exportProgram Field.seven (wideSample 2) =
      ⟨[], .error (.outsidePublic (.pub 2) 3 (Decimal.ofNat 2))⟩ := by
  refine ⟨?_, ?_, ?_⟩
  · have written := ((Run.finished_eq_ok _ _).1 Program.fileBytes_sample).1
    exact ⟨written, ((exportProgram_outcome Field.seven Program.sample).1.1 written).2.2⟩
  · obtain ⟨success, -, failure⟩ := exportProgram_outcome Field.seven (wideSample 1)
    have inside : AllInside 2 (wideSample 1).constraints := by
      unfold AllInside
      decide
    have too_wide : ¬ CoefficientsFit Field.seven (wideSample 1).constraints := by
      unfold CoefficientsFit
      decide
    -- Only one coefficient is too wide, and the rest has room, so there is one fault left.
    cases ended : (exportProgram Field.seven (wideSample 1)).outcome with
    | ok done => exact absurd (success.1 ended).2.1 too_wide
    | error fault =>
      cases (failure inside fault ended).2 with
      | noRoom crowded => exact absurd hasRoom_wideSample crowded
      | tooWide t member wide =>
        have only : ∀ t ∈ (wideSample 1).constraints.flatMap termsOf,
            256 ^ Field.seven.byteWidth ≤ t.coeff.value → t.coeff.value = 256 := by decide
        rw [only t member wide]
        rfl
  · obtain ⟨-, failure, -⟩ := exportProgram_outcome Field.seven (wideSample 2)
    have short : ∀ t ∈ (wideSample 2).constraints.flatMap termsOf,
        t.var.index + 1 < 10 ^ Decimal.digitLimit := by
      have low : ∀ t ∈ (wideSample 2).constraints.flatMap termsOf, t.var.index + 1 < 10 ^ 1 := by
        decide
      intro t member
      refine Nat.lt_of_lt_of_le (low t member) (Nat.pow_le_pow_right (by decide) ?_)
      decide
    have strays : ¬ AllInside 2 (wideSample 2).constraints := by
      unfold AllInside
      decide
    obtain ⟨before, t, after, index, split, -, var, -, run⟩ := failure short strays
    have only : ∀ t ∈ (wideSample 2).constraints.flatMap termsOf,
        t.var.isPublic = true → t.var.index = 2 := by decide
    have member : t ∈ (wideSample 2).constraints.flatMap termsOf := by
      rw [split]
      exact List.mem_append_cons_self
    have two : index = 2 := by
      have found := only t member
      rw [var] at found
      exact found rfl
    rw [run, two]
    rfl

end Circuit.R1cs

import Mathlib.Data.List.Forall2
import Mathlib.Logic.Relation
import Circuit.Proofs.R1cs.RoundTrip
import Circuit.Proofs.Statement.Equality

/-!
# What the bytes of a file depend on

A file holds the counts of an interface and the constraints of the top level, and nothing else of a
program. Programs that agree on these are written alike, and programs that are written alike agree
on them.

* `Program.SameContent` is the agreement; `exportProgram_congr` says that it is enough.
* `Program.Edit` are changes that a file does not show.
* `fileBytes_eq_iff_sameContent`: successful files are equal exactly when the contents are.
-/

namespace Circuit

open R1cs

def Constraint.SameAll (cs ds : List Constraint) : Prop :=
  List.Forall₂ (fun c d => c.same d = true) cs ds

instance (cs ds : List Constraint) : Decidable (Constraint.SameAll cs ds) :=
  inferInstanceAs (Decidable (List.Forall₂ _ cs ds))

/-- Programs agree on the counts of their interfaces and on the constraints of the top level. -/
structure Program.SameContent (p q : Program) : Prop where
  returnCount : p.interface.returnCount.toNat = q.interface.returnCount.toNat
  publicCount : p.interface.publicParameters.length = q.interface.publicParameters.length
  privateCount : p.interface.privateCount = q.interface.privateCount
  constraints : Constraint.SameAll p.constraints q.constraints

theorem Interface.publicCount_congr (i j : Interface)
    (publics : i.publicParameters.length = j.publicParameters.length)
    (returns : i.returnCount.toNat = j.returnCount.toNat) : i.publicCount = j.publicCount := by
  unfold publicCount
  rw [publics, returns]

namespace Constraint

/-- What is equal for same constraints is equal along same rows. -/
theorem SameAll.map_eq {α : Type} {cs ds : List Constraint} (h : SameAll cs ds)
    (f : Constraint → α) (respects : ∀ c d, c.same d = true → f c = f d) :
    cs.map f = ds.map f := by
  induction h with
  | nil => rfl
  | cons same later ih => rw [List.map_cons, List.map_cons, respects _ _ same, ih]

theorem SameAll.flatMap_eq {α : Type} {cs ds : List Constraint} (h : SameAll cs ds)
    (f : Constraint → List α) (respects : ∀ c d, c.same d = true → f c = f d) :
    cs.flatMap f = ds.flatMap f := by
  rw [List.flatMap_def, List.flatMap_def, h.map_eq f respects]

theorem SameAll.refl (cs : List Constraint) : SameAll cs cs := by
  induction cs with
  | nil => exact List.Forall₂.nil
  | cons c rest ih => exact List.Forall₂.cons ((same_iff c c).2 ⟨rfl, rfl, rfl⟩) ih

end Constraint

namespace R1cs

/-! ### Nothing else is written -/

theorem keys_termsOf (c : Constraint) :
    (termsOf c).map Term.key = c.quad.left.key ++ (c.quad.right.key ++ c.lin.key) := by
  simp only [termsOf_eq, List.map_append, LinComb.key]

theorem keys_congr (c d : Constraint) (same : c.same d = true) :
    (termsOf c).map Term.key = (termsOf d).map Term.key := by
  obtain ⟨left, right, lin⟩ := (Constraint.same_iff c d).1 same
  rw [keys_termsOf, keys_termsOf, left, right, lin]

theorem keys_congr_all {cs ds : List Constraint} (same : Constraint.SameAll cs ds) :
    (cs.flatMap termsOf).map Term.key = (ds.flatMap termsOf).map Term.key := by
  rw [List.map_flatMap, List.map_flatMap]
  exact same.flatMap_eq (fun c => (termsOf c).map Term.key) keys_congr

/-- What a term shows of itself is its key. -/
theorem map_of_keys {α : Type} {ts us : List Term} (f : Variable × Nat → α)
    (same : ts.map Term.key = us.map Term.key) :
    (ts.map fun t => f t.key) = us.map fun t => f t.key := by
  have mapped := congrArg (List.map f) same
  rwa [List.map_map, List.map_map] at mapped

/-- Wires are found from variables alone. -/
theorem wiresOfTerms_congr (shift : Nat) (ts us : List Term)
    (same : ts.map Term.key = us.map Term.key) : wiresOfTerms shift ts = wiresOfTerms shift us := by
  induction ts generalizing us with
  | nil =>
    rw [List.map_eq_nil_iff.1 same.symm]
  | cons t rest ih =>
    cases us with
    | nil => cases same
    | cons u others =>
      obtain ⟨head, tail⟩ := List.cons.inj same
      have var : t.var = u.var := congrArg Prod.fst head
      simp only [wiresOfTerms, var, ih others tail]

theorem wireSet_congr (shift : Nat) {cs ds : List Constraint} (same : Constraint.SameAll cs ds) :
    wireSet shift cs = wireSet shift ds := by
  unfold wireSet
  rw [show ((cs.flatMap termsOf).map fun t => t.var.wireNumber shift) =
    (ds.flatMap termsOf).map fun t => t.var.wireNumber shift from
      map_of_keys (fun k => k.1.wireNumber shift) (keys_congr_all same)]

theorem combChunks_congr (shift width : Nat) (a b : LinComb) (same : a.key = b.key) :
    combChunks shift width a = combChunks shift width b := by
  have sizes : a.size = b.size := by
    have lengths := congrArg List.length same
    rwa [LinComb.key, LinComb.key, List.length_map, List.length_map] at lengths
  have terms := map_of_keys
    (fun k => [(k.1.wire shift).bind word32, Bytes.fit width k.2]) same
  unfold combChunks
  rw [sizes, List.flatMap_def, List.flatMap_def]
  exact congrArg (fun rows => word32 b.size :: rows.flatten) terms

theorem constraintChunks_congr (shift width : Nat) (c d : Constraint) (same : c.same d = true) :
    constraintChunks shift width c = constraintChunks shift width d := by
  obtain ⟨left, right, lin⟩ := (Constraint.same_iff c d).1 same
  simp only [constraintChunks, Constraint.combs, List.flatMap_cons, List.flatMap_nil,
    combChunks_congr shift width _ _ left, combChunks_congr shift width _ _ right,
    combChunks_congr shift width _ _ lin]

theorem constraintsSize_congr (width : Nat) {cs ds : List Constraint}
    (same : Constraint.SameAll cs ds) :
    (cs.map fun c => 12 + (termsOf c).length * (width + 4)).sum =
      (ds.map fun c => 12 + (termsOf c).length * (width + 4)).sum := by
  refine congrArg List.sum (same.map_eq _ fun c d equal => ?_)
  have lengths := congrArg List.length (keys_congr c d equal)
  rw [List.length_map, List.length_map] at lengths
  rw [lengths]

/-- Everything that is written of equal constraints and equal counts is the same. -/
theorem chunks_congr (F : Field) (i j : Interface) {cs ds : List Constraint}
    (returns : i.returnCount.toNat = j.returnCount.toNat)
    (publics : i.publicParameters.length = j.publicParameters.length)
    (privates : i.privateCount = j.privateCount) (same : Constraint.SameAll cs ds) :
    chunks (Sizing.ofConstraints F i cs) cs = chunks (Sizing.ofConstraints F j ds) ds := by
  have shift := Interface.publicCount_congr i j publics returns
  have body := same.flatMap_eq (constraintChunks j.publicCount F.byteWidth)
    (constraintChunks_congr j.publicCount F.byteWidth)
  have wires := wireSet_congr j.publicCount same
  have size := constraintsSize_congr F.byteWidth same
  have count : cs.length = ds.length := same.length_eq
  rw [File.chunks_eq, File.chunks_eq]
  simp only [Sizing.ofConstraints, File.ofConstraints, Header.sectionSize, headerChunks, shift,
    body, wires, size, count, returns, publics, privates]

theorem allInside_congr (shift : Nat) {cs ds : List Constraint}
    (same : Constraint.SameAll cs ds) (inside : AllInside shift cs) : AllInside shift ds := by
  intro t member
  have key : t.key ∈ (ds.flatMap termsOf).map Term.key := List.mem_map_of_mem member
  rw [← keys_congr_all same] at key
  obtain ⟨u, u_member, equal⟩ := List.mem_map.1 key
  have var : u.var = t.var := congrArg Prod.fst equal
  exact var ▸ inside u u_member

/-- Programs of the same content are written alike, write by write, also when they fail. -/
theorem exportProgram_congr (F : Field) (p q : Program) (same : p.SameContent q) :
    exportProgram F p = exportProgram F q := by
  have shift := Interface.publicCount_congr _ _ same.publicCount same.returnCount
  unfold exportProgram exportConstraints exportWith
  by_cases inside : AllInside p.interface.publicCount p.constraints
  · have inside' := allInside_congr _ same.constraints inside
    rw [shift] at inside'
    rw [Sizing.compute_of_inside F _ _ inside, Sizing.compute_of_inside F _ _ inside']
    exact congrArg Run.ofChunks (chunks_congr F _ _ same.returnCount same.publicCount
      same.privateCount same.constraints)
  · -- Both first passes stop at the same place, for they look at nothing but keys.
    obtain ⟨before, t, after, split, first, outside⟩ := exists_first_outside _ _ inside
    have failed := wiresOfTerms_of_outside _ before after t first outside
    have failed' := wiresOfTerms_congr p.interface.publicCount _ _
      (keys_congr_all same.constraints)
    rw [split, failed] at failed'
    unfold Sizing.compute
    rw [split, failed, ← shift, ← failed']

/-! ### Everything that is written can be told -/

/-- The variables of a combination are told by their wires. -/
theorem key_of_wireComb (shift : Nat) (a : LinComb) (inside : ∀ t ∈ a.terms, t.var.Inside shift) :
    (wireComb shift a).map (fun t => (Variable.ofWire shift t.1, t.2)) = a.key := by
  unfold wireComb LinComb.key
  rw [List.map_map]
  apply List.map_congr_left
  intro t member
  exact congrArg (·, t.coeff.value) (Variable.ofWire_wireNumber shift t.var (inside t member))

/-- The wires and integers of a constraint tell it, up to its tag and the fields of its coefficients. -/
theorem same_of_wireConstraint_eq (shift : Nat) (c d : Constraint)
    (c_inside : ∀ t ∈ termsOf c, t.var.Inside shift)
    (d_inside : ∀ t ∈ termsOf d, t.var.Inside shift)
    (equal : wireConstraint shift c = wireConstraint shift d) : c.same d = true := by
  have key : ∀ (e : Constraint), (∀ t ∈ termsOf e, t.var.Inside shift) → ∀ a ∈ e.combs,
      (wireComb shift a).map (fun t => (Variable.ofWire shift t.1, t.2)) = a.key :=
    fun e inside a comb => key_of_wireComb shift a
      fun t member => inside t (List.mem_flatMap.2 ⟨a, comb, member⟩)
  obtain ⟨c_left, c_right, c_lin⟩ := (c.forall_mem_combs _).1 (key c c_inside)
  obtain ⟨d_left, d_right, d_lin⟩ := (d.forall_mem_combs _).1 (key d d_inside)
  simp only [wireConstraint, Prod.mk.injEq] at equal
  obtain ⟨left, right, lin⟩ := equal
  rw [Constraint.same_iff, ← c_left, ← c_right, ← c_lin, ← d_left, ← d_right, ← d_lin, left, right,
    lin]
  exact ⟨rfl, rfl, rfl⟩

theorem sameAll_of_wires_eq (shift : Nat) (cs ds : List Constraint) (c_inside : AllInside shift cs)
    (d_inside : AllInside shift ds)
    (equal : cs.map (wireConstraint shift) = ds.map (wireConstraint shift)) :
    Constraint.SameAll cs ds := by
  induction cs generalizing ds with
  | nil =>
    rw [List.map_eq_nil_iff.1 equal.symm]
    exact List.Forall₂.nil
  | cons c rest ih =>
    cases ds with
    | nil => cases equal
    | cons d others =>
      obtain ⟨head, tail⟩ := List.cons.inj equal
      unfold AllInside at c_inside d_inside
      rw [List.flatMap_cons, List.forall_mem_append] at c_inside d_inside
      exact List.Forall₂.cons (same_of_wireConstraint_eq shift c d c_inside.1 d_inside.1 head)
        (ih others c_inside.2 d_inside.2 tail)

/-- Programs that stand for the same file have the same content. -/
theorem sameContent_of_file_eq (F : Field) (p q : Program)
    (p_inside : AllInside p.interface.publicCount p.constraints)
    (q_inside : AllInside q.interface.publicCount q.constraints)
    (equal : File.ofConstraints F p.interface p.constraints =
      File.ofConstraints F q.interface q.constraints) : p.SameContent q := by
  have returns : p.interface.returnCount.toNat = q.interface.returnCount.toNat :=
    congrArg File.publicOutputs equal
  have publics : p.interface.publicParameters.length = q.interface.publicParameters.length :=
    congrArg File.publicInputs equal
  have shift := Interface.publicCount_congr _ _ publics returns
  have constraints : p.constraints.map (wireConstraint p.interface.publicCount) =
      q.constraints.map (wireConstraint q.interface.publicCount) :=
    congrArg File.constraints equal
  rw [← shift] at q_inside constraints
  exact ⟨returns, publics, congrArg File.privateInputs equal,
    sameAll_of_wires_eq _ _ _ p_inside q_inside constraints⟩

end R1cs

/-! ### Changes that a file does not show -/

/-- A change of what no file shows: statements that are no constraints come and go, parameters are
renamed, constraints get other tags. -/
inductive Program.Edit : Program → Program → Prop
  | insert (i : Interface) (before after : List Statement) (s : Statement)
      (other : s.constraint? = none) : Edit ⟨i, before ++ after⟩ ⟨i, before ++ s :: after⟩
  | remove (i : Interface) (before after : List Statement) (s : Statement)
      (other : s.constraint? = none) : Edit ⟨i, before ++ s :: after⟩ ⟨i, before ++ after⟩
  | rename (parameters renamed : List Parameter) (count : ReturnCount) (ss : List Statement)
      (kept : renamed.map (·.isPrivate) = parameters.map (·.isPrivate)) :
      Edit ⟨⟨parameters, count⟩, ss⟩ ⟨⟨renamed, count⟩, ss⟩
  | retag (i : Interface) (before after : List Statement) (c : Constraint)
      (tag : Option ErrorTag) :
      Edit ⟨i, before ++ .constraint c :: after⟩ ⟨i, before ++ .constraint { c with tag } :: after⟩

theorem Interface.counts_of_flags (parameters renamed : List Parameter) (count : ReturnCount)
    (kept : renamed.map (·.isPrivate) = parameters.map (·.isPrivate)) :
    (Interface.mk renamed count).publicParameters.length =
        (Interface.mk parameters count).publicParameters.length ∧
      (Interface.mk renamed count).privateCount = (Interface.mk parameters count).privateCount := by
  have flags : ∀ (f : Bool → Bool) (ps : List Parameter),
      (ps.filter fun p => f p.isPrivate).length = ((ps.map (·.isPrivate)).filter f).length := by
    intro f ps
    rw [List.filter_map, List.length_map]
    rfl
  have agree : ∀ f : Bool → Bool, (renamed.filter fun p => f p.isPrivate).length =
      (parameters.filter fun p => f p.isPrivate).length := by
    intro f
    rw [flags, flags, kept]
  unfold publicParameters privateCount
  rw [List.length_map, List.length_map]
  exact ⟨agree (! ·), agree id⟩

/-- Each edit keeps the counts of the interface and the constraints. -/
theorem Program.Edit.sameContent {p q : Program} (edit : p.Edit q) : p.SameContent q := by
  cases edit with
  | insert i before after s other =>
    refine ⟨rfl, rfl, rfl, ?_⟩
    simp only [constraints, List.filterMap_append, List.filterMap_cons_none other]
    exact Constraint.SameAll.refl _
  | remove i before after s other =>
    refine ⟨rfl, rfl, rfl, ?_⟩
    simp only [constraints, List.filterMap_append, List.filterMap_cons_none other]
    exact Constraint.SameAll.refl _
  | rename parameters renamed count ss kept =>
    obtain ⟨publics, privates⟩ := Interface.counts_of_flags parameters renamed count kept
    exact ⟨rfl, publics.symm, privates.symm, Constraint.SameAll.refl _⟩
  | retag i before after c tag =>
    refine ⟨rfl, rfl, rfl, ?_⟩
    simp only [constraints, List.filterMap_append, List.filterMap_cons, Statement.constraint?]
    refine List.rel_append (Constraint.SameAll.refl _) (List.Forall₂.cons ?_ ?_)
    · exact (Constraint.same_iff _ _).2 ⟨rfl, rfl, rfl⟩
    · exact Constraint.SameAll.refl _

/-- A file determines exactly the content of its program, and no edit is seen in it. -/
theorem fileBytes_eq_iff_sameContent (F : Field) :
    (∀ (p q : Program) (b c : Bytes), fileBytes F p = .ok b → fileBytes F q = .ok c →
      (b = c ↔ p.SameContent q)) ∧
    ∀ p q : Program, Relation.ReflTransGen Program.Edit p q →
      exportProgram F p = exportProgram F q := by
  constructor
  · intro p q b c p_written q_written
    constructor
    · intro equal
      obtain ⟨p_inside, p_fits, p_bytes⟩ := (finished_exportConstraints F _ _ b).1 p_written
      obtain ⟨q_inside, q_fits, q_bytes⟩ := (finished_exportConstraints F _ _ c).1 q_written
      have p_read := File.read_bytes _ p_fits (File.consistent_ofConstraints F _ _)
      have q_read := File.read_bytes _ q_fits (File.consistent_ofConstraints F _ _)
      -- The same bytes are read back as the file of each program.
      rw [← p_bytes, equal, q_bytes, q_read] at p_read
      exact sameContent_of_file_eq F p q p_inside q_inside (Except.ok.inj p_read).symm
    · intro same
      unfold fileBytes at p_written q_written
      rw [exportProgram_congr F p q same, q_written] at p_written
      exact (Except.ok.inj p_written).symm
  · intro p q edits
    induction edits with
    | refl => rfl
    | tail earlier edit ih => exact ih.trans (exportProgram_congr F _ _ edit.sameContent)

/-- The sample after a block, with other names for its parameters and a tag. -/
def Program.sampleEdited : Program :=
  ⟨⟨[⟨.pub 9, false⟩, ⟨.one, true⟩], .number 1⟩,
    [.block [.constraint Constraint.sample],
      .constraint { Constraint.sample with tag := some ⟨.str "Bitness", .null⟩ }]⟩

theorem fileBytes_eq_iff_sameContent_sample :
    fileBytes Field.seven Program.sample = .ok File.sample.bytes ∧
      fileBytes Field.seven Program.sampleEdited = .ok File.sample.bytes ∧
      Program.sample.SameContent Program.sampleEdited := by
  have edits : Relation.ReflTransGen Program.Edit Program.sample Program.sampleEdited := by
    apply Relation.ReflTransGen.tail
    · apply Relation.ReflTransGen.tail
      · exact Relation.ReflTransGen.single (.insert _ [] _ (.block [.constraint Constraint.sample]) rfl)
      · exact .rename _ [⟨.pub 9, false⟩, ⟨.one, true⟩] _ _ rfl
    · exact .retag _ [_] [] Constraint.sample (some ⟨.str "Bitness", .null⟩)
  have same := (fileBytes_eq_iff_sameContent Field.seven).2 _ _ edits
  have written := Program.fileBytes_sample
  have edited : fileBytes Field.seven Program.sampleEdited = .ok File.sample.bytes := by
    unfold fileBytes at written ⊢
    rw [← same, written]
  exact ⟨written, edited,
    ((fileBytes_eq_iff_sameContent Field.seven).1 _ _ _ _ written edited).1 rfl⟩

end Circuit

import Circuit.Proofs.R1cs.Reading
import Circuit.Proofs.R1cs.Writing
import Circuit.Source.Script

/-!
# Reading back what was written

A program over a source is read twice to write its file: once for the sizes, once for the bytes. The
file that comes out is read back as the file that the program stands for, and nothing is lost.

* `Supplied.export_eq_ok` says when a program over a source is written, and as what.
* `Supplied.read_export`: reading what was written gives `File.ofConstraints` of the program.
-/

namespace Circuit

open R1cs

/-- A count of returned values that a file can hold is shown as it was given. -/
theorem Supplied.interface_eq_ok (p : Supplied) (i : Interface) (natural : p.oddSize? = none)
    (h : p.interface = .ok i) :
    i.parameters = p.parameters ∧ i.returnCount.toJson = p.returnCount := by
  unfold interface at h
  split at h
  · rename_i b given
    cases h
    exact ⟨rfl, given.symm⟩
  · rename_i n given
    cases h
    refine ⟨rfl, ?_⟩
    unfold oddSize? at natural
    rw [given] at natural ⊢
    cases n with
    | ofNat n => rfl
    | negSucc n => cases natural
  · cases h

/-- A source shows the second reading what it showed the first. -/
theorem Supplied.constraints_opened (p : Supplied) : p.opened.constraints = p.constraints := by
  unfold constraints members opened
  rw [Source.members_opened]

/-- A program over a source is written as the constraints that a reading sees. -/
theorem Supplied.export_eq_ok (F : Field) (p : Supplied) (bytes : Bytes) :
    (p.export F).2 = .ok bytes ↔ p.oddSize? = none ∧ ∃ i, p.interface = .ok i ∧
      (exportConstraints F i p.constraints).finished = .ok bytes := by
  unfold «export» exportConstraints exportWith
  rw [constraints_opened]
  cases odd : p.oddSize? with
  | some size =>
    cases refused : refusal size p.constraints with
    | some fault => simp [refused]
    | none => simp [refused]
  | none =>
    cases shown : p.interface with
    | error fault => simp
    | ok i =>
      cases sized : Sizing.compute F i p.constraints with
      | error fault => simp [sized, Run.finished, Except.map]
      | ok sizing => simp [sized]

/-- Exporting and reading back loses nothing: what was written is read as the file that the program
stands for, in which every variable has its wire. -/
theorem Supplied.read_export (F : Field) (p : Supplied) (bytes : Bytes)
    (success : (p.export F).2 = .ok bytes) :
    ∃ i : Interface, i.parameters = p.parameters ∧ i.returnCount.toJson = p.returnCount ∧
      (∀ t ∈ p.constraints.flatMap termsOf,
        t.var.wire i.publicCount = .ok (t.var.wireNumber i.publicCount)) ∧
      File.read bytes = .ok (File.ofConstraints F i p.constraints) := by
  obtain ⟨natural, i, shown, written⟩ := (export_eq_ok F p bytes).1 success
  obtain ⟨parameters, count⟩ := interface_eq_ok p i natural shown
  obtain ⟨inside, fits, rfl⟩ := (finished_exportConstraints F i p.constraints bytes).1 written
  refine ⟨i, parameters, count, fun t member => ?_, ?_⟩
  · exact Variable.wire_of_inside i.publicCount t.var (inside t member)
  · exact File.read_bytes _ fits (File.consistent_ofConstraints F i p.constraints)

def Field.seven : Field := .residues 7 (by decide)

/-- A field whose elements need two bytes. -/
def Field.wide : Field := .residues 300 (by decide)

/-- `(2 * _2 + 3 * _2) * (1 * ~one) == 255 * ~out_0`, the last coefficient from a wider field. -/
def Constraint.sample : Constraint :=
  ⟨⟨⟨[⟨.loc 2 (by decide), Field.seven.element 2⟩, ⟨.loc 2 (by decide), Field.seven.element 3⟩]⟩,
    LinComb.one Field.seven⟩, ⟨[⟨.pub 0, Field.wide.element 255⟩]⟩, none⟩

/-- A program whose source is opened anew for every reading and holds more than constraints. -/
def Supplied.sample : Supplied where
  parameters := [⟨.pub 1, false⟩, ⟨.loc 1 (by decide), true⟩]
  returnCount := .int 1
  base := [.statement (.constraint Constraint.sample), .other .null]
  source := .generated 0
  collected := none

/-- The sample as a program in memory. -/
def Program.sample : Program :=
  ⟨⟨Supplied.sample.parameters, .number 1⟩, [.constraint Constraint.sample]⟩

/-- The file of the sample: local variable 2 is wire 4, behind two public wires. -/
def File.sample : File where
  version := 1
  fieldSize := 1
  prime := 7
  wireCount := 3
  publicOutputs := 1
  publicInputs := 1
  privateInputs := 1
  labelCount := 3
  constraintCount := 1
  constraints := [([(4, 2), (4, 3)], [(0, 1)], [(1, 255)])]
  labels := [0, 1, 4]
  sectionSizes := [(2, 32), (1, 33), (3, 24)]

theorem File.ofConstraints_sample :
    File.ofConstraints Field.seven Program.sample.interface Program.sample.constraints =
      File.sample := by
  have used : wireSet 2 Program.sample.constraints = [0, 1, 4].toFinset := by decide
  have labels : [0, 1, 4].toFinset.sort = [0, 1, 4] :=
    (List.toFinset_sort (· ≤ ·) (by decide)).2 (by decide)
  have known : Program.sample.interface.publicCount = 2 := rfl
  unfold File.ofConstraints
  rw [known, used, labels]
  decide

theorem File.fits_sample : File.sample.Fits where
  fieldSize := by decide
  prime := by decide
  wireCount := by decide
  publicOutputs := by decide
  publicInputs := by decide
  privateInputs := by decide
  labelCount := by decide
  constraintCount := by decide
  constraints := by decide
  labels := by decide
  sizes := by decide

theorem Program.fileBytes_sample : fileBytes Field.seven Program.sample = .ok File.sample.bytes := by
  unfold fileBytes exportProgram
  rw [finished_exportConstraints, File.ofConstraints_sample]
  exact ⟨by unfold AllInside; decide, File.fits_sample, rfl⟩

theorem Supplied.export_sample :
    (Supplied.sample.export Field.seven).2 = .ok File.sample.bytes := by
  rw [export_eq_ok]
  exact ⟨rfl, Program.sample.interface, rfl, Program.fileBytes_sample⟩

/-- The sample is written, and read back as its file. -/
theorem Supplied.read_export_sample :
    (Supplied.sample.export Field.seven).2 = .ok File.sample.bytes ∧
      File.read File.sample.bytes = .ok File.sample := by
  obtain ⟨⟨parameters, count⟩, same, counted, -, read⟩ :=
    read_export Field.seven Supplied.sample File.sample.bytes export_sample
  subst same
  cases count with
  | flag b => cases counted
  | number n =>
    cases counted
    exact ⟨export_sample, read.trans (congrArg Except.ok File.ofConstraints_sample)⟩

end Circuit

import Mathlib.Algebra.Ring.Nat
import Circuit.R1cs.Reader

/-!
# The layout of constraint files

The bytes of a file as a function of its content, without a writer: numbers at their fixed widths,
combinations behind their counts of terms, bodies behind the heads of their sections.

* `File.bytes` lays a file out, its constraint section first.
* `File.Fits` says that every number has room in its place, and `File.Consistent` that the declared
  counts and sizes are those of the content.
-/

namespace Circuit.R1cs

open Bytes

/-- A constraint over wires: the two factors and the combination they are equal to. -/
abbrev WireConstraint := WireComb × WireComb × WireComb

/-- A term: its wire and its coefficient. -/
def termBytes (width : Nat) (t : Nat × Nat) : Bytes :=
  littleEndian 4 t.1 ++ littleEndian width t.2

namespace WireComb

def bytes (width : Nat) (a : WireComb) : Bytes :=
  littleEndian 4 a.length ++ a.flatMap (termBytes width)

/-- The count of terms, the wires and the coefficients have room. -/
def Fits (width : Nat) (a : WireComb) : Prop :=
  a.length < capacity 4 ∧ ∀ t ∈ a, t.1 < capacity 4 ∧ t.2 < capacity width

instance (width : Nat) (a : WireComb) : Decidable (Fits width a) :=
  inferInstanceAs (Decidable (_ ∧ _))

end WireComb

namespace WireConstraint

def bytes (width : Nat) (c : WireConstraint) : Bytes :=
  WireComb.bytes width c.1 ++ (WireComb.bytes width c.2.1 ++ WireComb.bytes width c.2.2)

def Fits (width : Nat) (c : WireConstraint) : Prop :=
  WireComb.Fits width c.1 ∧ WireComb.Fits width c.2.1 ∧ WireComb.Fits width c.2.2

instance (width : Nat) (c : WireConstraint) : Decidable (Fits width c) :=
  inferInstanceAs (Decidable (_ ∧ _ ∧ _))

def size (c : WireConstraint) : Nat := c.1.length + c.2.1.length + c.2.2.length

end WireConstraint

namespace Section

def bytes (s : Section) : Bytes :=
  littleEndian 4 s.type ++ (littleEndian 8 s.size ++ s.body)

/-- The head has room for the type and the size, and the size is that of the body. -/
structure WellFormed (s : Section) : Prop where
  type_fits : s.type < capacity 4
  size_fits : s.size < capacity 8
  size_eq : s.size = s.body.length

end Section

namespace File

def headerBody (f : File) : Bytes :=
  littleEndian 4 f.fieldSize ++ (littleEndian f.fieldSize f.prime ++
    (littleEndian 4 f.wireCount ++ (littleEndian 4 f.publicOutputs ++
    (littleEndian 4 f.publicInputs ++ (littleEndian 4 f.privateInputs ++
    (littleEndian 8 f.labelCount ++ littleEndian 4 f.constraintCount))))))

def constraintBody (f : File) : Bytes := f.constraints.flatMap (WireConstraint.bytes f.fieldSize)

def labelBody (f : File) : Bytes := f.labels.flatMap (littleEndian 8)

def sectionOf (type : Nat) (body : Bytes) : Section := ⟨type, body.length, body⟩

/-- The sections of a file, in order. -/
def sections (f : File) : List Section :=
  [sectionOf constraintSection f.constraintBody, sectionOf headerSection f.headerBody,
    sectionOf labelSection f.labelBody]

def bytes (f : File) : Bytes :=
  magic ++ (littleEndian 4 f.version ++ (littleEndian 4 f.sections.length ++
    f.sections.flatMap Section.bytes))

/-- Every number of a file has room in its place. -/
structure Fits (f : File) : Prop where
  fieldSize : f.fieldSize < capacity 4
  prime : f.prime < capacity f.fieldSize
  wireCount : f.wireCount < capacity 4
  publicOutputs : f.publicOutputs < capacity 4
  publicInputs : f.publicInputs < capacity 4
  privateInputs : f.privateInputs < capacity 4
  labelCount : f.labelCount < capacity 8
  constraintCount : f.constraintCount < capacity 4
  constraints : ∀ c ∈ f.constraints, WireConstraint.Fits f.fieldSize c
  labels : ∀ n ∈ f.labels, n < capacity 8
  sizes : ∀ s ∈ f.sections, s.size < capacity 8

/-- What a file declares about itself is true. -/
structure Consistent (f : File) : Prop where
  version : f.version = formatVersion
  labelCount : f.labelCount = f.labels.length
  constraintCount : f.constraintCount = f.constraints.length
  sectionSizes : f.sectionSizes = f.sections.map fun s => (s.type, s.size)

end File

theorem length_termBytes (width : Nat) (t : Nat × Nat) : (termBytes width t).length = 4 + width := by
  simp [termBytes, length_littleEndian]

theorem WireComb.length_bytes (width : Nat) (a : WireComb) :
    (WireComb.bytes width a).length = 4 + a.length * (4 + width) := by
  unfold WireComb.bytes
  rw [List.length_append, length_littleEndian, List.length_flatMap]
  simp only [length_termBytes, List.map_const', List.sum_replicate_nat]

theorem WireConstraint.length_bytes (width : Nat) (c : WireConstraint) :
    (WireConstraint.bytes width c).length = 12 + c.size * (4 + width) := by
  unfold WireConstraint.bytes WireConstraint.size
  simp only [List.length_append, WireComb.length_bytes, Nat.add_mul]
  omega

namespace File

theorem forall_mem_sections (f : File) (p : Section → Prop) :
    (∀ s ∈ f.sections, p s) ↔ p (sectionOf constraintSection f.constraintBody) ∧
      p (sectionOf headerSection f.headerBody) ∧ p (sectionOf labelSection f.labelBody) := by
  simp [sections]

theorem length_headerBody (f : File) : f.headerBody.length = 32 + f.fieldSize := by
  simp only [headerBody, List.length_append, length_littleEndian]
  omega

theorem length_labelBody (f : File) : f.labelBody.length = 8 * f.labels.length := by
  unfold labelBody
  rw [List.length_flatMap]
  simp only [length_littleEndian, List.map_const', List.sum_replicate_nat, Nat.mul_comm]

/-- The size of a constraint section, by the counts of terms. -/
theorem length_constraintBody (f : File) :
    f.constraintBody.length =
      (f.constraints.map fun c => 12 + WireConstraint.size c * (4 + f.fieldSize)).sum := by
  unfold constraintBody
  rw [List.length_flatMap]
  simp only [WireConstraint.length_bytes]

end File

end Circuit.R1cs

import Circuit.R1cs.Cursor
import Circuit.R1cs.Export

/-!
# Reading constraint files

Sections may come in any order, and sections of unknown type are passed over; the bodies of the three
known ones are read after all sections are found, the header first.

* `readConstraint_shorter` says that every constraint takes bytes, so the reader ends.
* `File.read` reads a file.
-/

namespace Circuit.R1cs

open Cursor

/-- Reads `count` terms, each a wire and a coefficient of `width` bytes. -/
def readTerms (width : Nat) : Nat → Step WireComb
  | 0 => return []
  | count + 1 => do
      let wire ← number 4
      let coeff ← number width
      let terms ← readTerms width count
      return (wire, coeff) :: terms

def readComb (width : Nat) : Step WireComb := do
  let count ← number 4
  readTerms width count

def readConstraint (width : Nat) : Step (WireComb × WireComb × WireComb) := do
  let left ← readComb width
  let right ← readComb width
  let lin ← readComb width
  return (left, right, lin)

theorem readTerms_shorter {width count : Nat} {terms : WireComb} {c d : Cursor}
    (h : readTerms width count c = .ok (terms, d)) : d.rest.length ≤ c.rest.length := by
  induction count generalizing terms c d with
  | zero =>
      obtain ⟨_, rfl⟩ := Step.pure_eq_ok.1 h
      exact Nat.le_refl _
  | succ count ih =>
      obtain ⟨wire, c₁, h₁, h⟩ := Step.bind_eq_ok.1 h
      obtain ⟨coeff, c₂, h₂, h⟩ := Step.bind_eq_ok.1 h
      obtain ⟨others, c₃, h₃, h⟩ := Step.bind_eq_ok.1 h
      obtain ⟨_, rfl⟩ := Step.pure_eq_ok.1 h
      have first := number_shorter h₁
      have second := number_shorter h₂
      have later := ih h₃
      omega

/-- A combination takes at least the bytes of its count, so that reading constraints comes to an end. -/
theorem readComb_shorter {width : Nat} {terms : WireComb} {c d : Cursor}
    (h : readComb width c = .ok (terms, d)) : d.rest.length < c.rest.length := by
  obtain ⟨count, c₁, h₁, h⟩ := Step.bind_eq_ok.1 h
  have first := number_shorter h₁
  have later := readTerms_shorter h
  omega

theorem readConstraint_shorter {width : Nat} {triple : WireComb × WireComb × WireComb}
    {c d : Cursor} (h : readConstraint width c = .ok (triple, d)) :
    d.rest.length < c.rest.length := by
  obtain ⟨left, c₁, h₁, h⟩ := Step.bind_eq_ok.1 h
  obtain ⟨right, c₂, h₂, h⟩ := Step.bind_eq_ok.1 h
  obtain ⟨lin, c₃, h₃, h⟩ := Step.bind_eq_ok.1 h
  obtain ⟨_, rfl⟩ := Step.pure_eq_ok.1 h
  have first := readComb_shorter h₁
  have second := readComb_shorter h₂
  have third := readComb_shorter h₃
  omega

/-- Reads constraints up to the end of the data. -/
def readConstraints (width : Nat) (c : Cursor) :
    Except FormatError (List (WireComb × WireComb × WireComb)) :=
  if c.atEnd then .ok []
  else
    match _h : readConstraint width c with
    | .error e => .error e
    | .ok (triple, d) => (readConstraints width d).map (triple :: ·)
termination_by c.rest.length
decreasing_by exact readConstraint_shorter _h

def readLabels (c : Cursor) : Except FormatError (List Nat) :=
  if c.atEnd then .ok []
  else
    match _h : number 8 c with
    | .error e => .error e
    | .ok (label, d) => (readLabels d).map (label :: ·)
termination_by c.rest.length
decreasing_by
  have := number_shorter _h
  omega

/-- A section: its type, its declared size and its body. -/
structure Section where
  type : Nat
  size : Nat
  body : Bytes
deriving DecidableEq, Repr

def findSection? (sections : List Section) (type : Nat) : Option Section :=
  sections.find? fun s => s.type = type

/-- Reads `count` sections after those already found, in order. A type that was found before is
refused ahead of the section's body. -/
def readSections : Nat → List Section → Step (List Section)
  | 0, found => return found
  | count + 1, found => do
      let type ← number 4
      let size ← number 8
      require (findSection? found type).isNone (.repeatedSection type)
      let body ← take size
      readSections count (found ++ [⟨type, size, body⟩])

/-- Reads the mark, the version and the sections of a file. -/
def readContainer : Step (List Section) := do
  let mark ← take 4
  require (mark = magic) .badMagic
  let version ← number 4
  require (version = formatVersion) (.badVersion version)
  let count ← number 4
  let sections ← readSections count []
  requireEnd .trailingData
  return sections

def readHeader (sizes : List (Nat × Nat)) : Step File := do
  let fieldSize ← number 4
  let prime ← number fieldSize
  let wireCount ← number 4
  let publicOutputs ← number 4
  let publicInputs ← number 4
  let privateInputs ← number 4
  let labelCount ← number 8
  let constraintCount ← number 4
  requireEnd .badHeaderSize
  return ⟨formatVersion, fieldSize, prime, wireCount, publicOutputs, publicInputs, privateInputs,
    labelCount, constraintCount, [], [], sizes⟩

def requireSection (sections : List Section) (type : Nat) : Except FormatError Bytes :=
  match findSection? sections type with
  | some s => .ok s.body
  | none => .error (.missingSection type)

/-- Compares the counts that a file declares with what it holds. -/
def checkCounts (file : File) : Except FormatError File :=
  if file.constraints.length ≠ file.constraintCount then
    .error (.constraintCount file.constraintCount file.constraints.length)
  else if file.labels.length ≠ file.labelCount then
    .error (.labelCount file.labelCount file.labels.length)
  else .ok file

/-- Reads the bodies of the three known sections, and compares the counts at the end. -/
def readBodies (sections : List Section) : Except FormatError File := do
  let header ← requireSection sections headerSection
  let constraints ← requireSection sections constraintSection
  let labels ← requireSection sections labelSection
  let (file, _) ← readHeader (sections.map fun s => (s.type, s.size)) (ofBytes header)
  let constraints ← readConstraints file.fieldSize (ofBytes constraints)
  let labels ← readLabels (ofBytes labels)
  checkCounts { file with constraints := constraints, labels := labels }

def File.read (bytes : Bytes) : Except FormatError File := do
  let (sections, _) ← readContainer (ofBytes bytes)
  readBodies sections

end Circuit.R1cs

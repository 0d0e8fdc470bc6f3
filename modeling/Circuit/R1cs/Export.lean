import Circuit.R1cs.Sizing

/-!
# Writing constraint files

A file is a row of writes: the mark `r1cs`, version and section count, then the constraint section,
the header section and the label section. Every integer, the prime and each coefficient is one
write of its own. A write whose value does not fit its place stops the file there.

* `chunks` are the writes of a file, each with its bytes or its fault.
* `export` is the run of a file into a sink that takes everything, `exportLimited` into a sink that
  refuses all writes after the first few.
-/

namespace Circuit.R1cs

/-- The mark at the start of a file. -/
def magic : Bytes := [0x72, 0x31, 0x63, 0x73]

def formatVersion : Nat := 1

def headerSection : Nat := 1

def constraintSection : Nat := 2

def labelSection : Nat := 3

/-- A write: its bytes, or why they cannot be made. -/
abbrev Chunk := Except Fault Bytes

/-- What reaches a sink, and how the run ends. -/
structure Run where
  writes : List Bytes
  outcome : Except Fault Unit
deriving Repr

namespace Run

def bytes (r : Run) : Bytes := r.writes.flatten

/-- The run of a row of writes into a sink that takes everything. -/
def ofChunks : List Chunk → Run
  | [] => ⟨[], .ok ()⟩
  | .error fault :: _ => ⟨[], .error fault⟩
  | .ok bytes :: rest =>
      let run := ofChunks rest
      ⟨bytes :: run.writes, run.outcome⟩

/-- The run of a row of writes into a sink that refuses all writes after the first `limit`. -/
def ofChunksLimited : Nat → List Chunk → Run
  | _, [] => ⟨[], .ok ()⟩
  | _, .error fault :: _ => ⟨[], .error fault⟩
  | 0, .ok _ :: _ => ⟨[], .error .sinkFull⟩
  | limit + 1, .ok bytes :: rest =>
      let run := ofChunksLimited limit rest
      ⟨bytes :: run.writes, run.outcome⟩

end Run

def word32 (n : Nat) : Chunk := Bytes.word 4 n

def word64 (n : Nat) : Chunk := Bytes.word 8 n

/-- The head of a section: its type and its byte count. -/
def sectionHead (type size : Nat) : List Chunk := [word32 type, word64 size]

/-- The writes of a term: its wire and its coefficient. -/
def termChunks (shift width : Nat) (t : Term) : List Chunk :=
  -- The width is that of a modulus, which has fewer bytes than the greatest row.
  [(t.var.wire shift).bind word32, Bytes.fit width t.coeff.value]

def combChunks (shift width : Nat) (a : LinComb) : List Chunk :=
  word32 a.size :: a.terms.flatMap (termChunks shift width)

def constraintChunks (shift width : Nat) (c : Constraint) : List Chunk :=
  c.combs.flatMap (combChunks shift width)

def headerChunks (h : Header) : List Chunk :=
  [word32 h.fieldSize, .ok h.prime, word32 h.wireCount, word32 h.publicOutputs.toNat,
   word32 h.publicInputs, word32 h.privateInputs, word64 h.labelCount, word32 h.constraintCount]

/-- The writes of a file of known sizes. -/
def chunks (s : Sizing) (constraints : List Constraint) : List Chunk :=
  [.ok magic, word32 formatVersion, word32 3] ++
    sectionHead constraintSection s.constraintsSize ++
    constraints.flatMap (constraintChunks s.shift s.header.fieldSize) ++
    sectionHead headerSection s.header.sectionSize ++
    headerChunks s.header ++
    sectionHead labelSection (s.header.wireCount * 8) ++
    s.wires.map word64

/-- Writes the constraints behind an interface through a way of running a row of writes. Nothing is
written before the sizes are known. -/
def exportWith (run : List Chunk → Run) (F : Field) (i : Interface)
    (constraints : List Constraint) : Run :=
  match Sizing.compute F i constraints with
  | .error fault => ⟨[], .error fault⟩
  | .ok sizing => run (chunks sizing constraints)

/-- Writes a file into a sink that takes everything. -/
def exportConstraints (F : Field) (i : Interface) (constraints : List Constraint) : Run :=
  exportWith Run.ofChunks F i constraints

/-- Writes a file into a sink that refuses all writes after the first `limit`. -/
def exportLimited (limit : Nat) (F : Field) (i : Interface) (constraints : List Constraint) : Run :=
  exportWith (Run.ofChunksLimited limit) F i constraints

def exportProgram (F : Field) (p : Program) : Run :=
  exportConstraints F p.interface p.constraints

/-- The bytes of a finished run, or the fault that stopped it. -/
def Run.finished (r : Run) : Except Fault Bytes := r.outcome.map fun _ => r.bytes

def fileBytes (F : Field) (p : Program) : Except Fault Bytes := (exportProgram F p).finished

end Circuit.R1cs

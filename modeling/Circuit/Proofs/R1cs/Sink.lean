import Mathlib.Data.ENat.Basic
import Circuit.Proofs.R1cs.Outcome

/-!
# Sinks that fail

A sink counts the writes that are attempted on it. It takes the first few and refuses all others, and the
writer stops at the first refusal, as it stops at a write that cannot be made.

* `Sink.write` is one attempt, `Sink.run` a row of writes; `Sink.run_of_le` and `Sink.run_of_lt` say what a row
  does to a sink, with and without enough room.
* `exportInto` writes a program into a sink; `exportInto_sees_prefix` says that a sink that fails has seen the
  start of what a sink without a limit sees.
-/

namespace Circuit.R1cs

/-- A sink that takes as many writes as its limit. -/
structure Sink where
  limit : ℕ∞
  attempts : Nat
  taken : List Bytes

namespace Sink

def fresh (limit : ℕ∞) : Sink := ⟨limit, 0, []⟩

/-- One attempt. It counts whether or not the write is taken. -/
def write (s : Sink) (bytes : Bytes) : Except Fault Unit × Sink :=
  if s.attempts < s.limit then (.ok (), ⟨s.limit, s.attempts + 1, s.taken ++ [bytes]⟩)
  else (.error .sinkFull, ⟨s.limit, s.attempts + 1, s.taken⟩)

def run (s : Sink) : List Chunk → Except Fault Unit × Sink
  | [] => (.ok (), s)
  | .error fault :: _ => (.error fault, s)
  | .ok bytes :: rest =>
      match s.write bytes with
      | (.error fault, after) => (.error fault, after)
      | (.ok _, after) => after.run rest

variable {s : Sink}

/-- With room for it, a write is attempted and taken. -/
theorem write_of_lt (room : s.attempts < s.limit) (bytes : Bytes) :
    s.write bytes = (.ok (), ⟨s.limit, s.attempts + 1, s.taken ++ [bytes]⟩) :=
  if_pos room

/-- Without room the attempt still counts. -/
theorem write_of_le (full : s.limit ≤ s.attempts) (bytes : Bytes) :
    s.write bytes = (.error .sinkFull, ⟨s.limit, s.attempts + 1, s.taken⟩) :=
  if_neg (not_lt_of_ge full)

/-- A sink with room for one write more takes the next one, and has the rest of its room left. -/
theorem room_succ {room : Nat} (limited : s.limit = (s.attempts + (room + 1) : Nat)) :
    (s.attempts : ℕ∞) < s.limit ∧ s.limit = (s.attempts + 1 + room : Nat) := by
  rw [limited, Nat.add_assoc, Nat.add_comm 1 room]
  exact ⟨Nat.cast_lt.2 (by omega), rfl⟩

/-- A sink with room for all writes of a row takes all of them, and the row ends as it does by itself. -/
theorem run_of_le {cs : List Chunk}
    (room : ((s.attempts + (Run.ofChunks cs).writes.length : Nat) : ℕ∞) ≤ s.limit) :
    s.run cs = ((Run.ofChunks cs).outcome,
      ⟨s.limit, s.attempts + (Run.ofChunks cs).writes.length, s.taken ++ (Run.ofChunks cs).writes⟩) := by
  induction cs generalizing s with
  | nil => simp only [run, Run.ofChunks, List.append_nil, List.length_nil, Nat.add_zero]
  | cons c rest ih =>
    cases c with
    | error fault => simp only [run, Run.ofChunks, List.append_nil, List.length_nil, Nat.add_zero]
    | ok bytes =>
      simp only [Run.ofChunks, List.length_cons] at room ⊢
      have count : s.attempts + 1 + (Run.ofChunks rest).writes.length =
          s.attempts + ((Run.ofChunks rest).writes.length + 1) := by omega
      have here : (s.attempts : ℕ∞) < s.limit := lt_of_lt_of_le (Nat.cast_lt.2 (by omega)) room
      simp only [run, write_of_lt here]
      rw [ih (by rwa [count]), count, List.append_assoc]
      rfl

/-- A sink without room for all writes of a row takes the first ones, and the first write that is refused is
the last one attempted. -/
theorem run_of_lt {cs : List Chunk} {room : Nat} (limited : s.limit = (s.attempts + room : Nat))
    (short : room < (Run.ofChunks cs).writes.length) :
    s.run cs = (.error .sinkFull,
      ⟨s.limit, s.attempts + room + 1, s.taken ++ (Run.ofChunks cs).writes.take room⟩) := by
  induction cs generalizing s room with
  | nil => exact absurd short (Nat.not_lt_zero room)
  | cons c rest ih =>
    cases c with
    | error fault => exact absurd short (Nat.not_lt_zero room)
    | ok bytes =>
      cases room with
      | zero =>
        have full : s.limit ≤ s.attempts := limited.le
        simp only [run, write_of_le full, Nat.add_zero, List.take_zero, List.append_nil]
      | succ room =>
        obtain ⟨here, later⟩ := room_succ limited
        simp only [Run.ofChunks, List.length_cons, Nat.succ_lt_succ_iff] at short
        simp only [run, write_of_lt here, Run.ofChunks, List.take_succ_cons]
        rw [ih later short, List.append_assoc, Nat.add_assoc s.attempts 1, Nat.add_comm 1 room]
        rfl

/-- A limited run is what a sink with that much room takes. -/
theorem ofChunksLimited_run (cs : List Chunk) {room : Nat}
    (limited : s.limit = (s.attempts + room : Nat)) :
    (s.run cs).1 = (Run.ofChunksLimited room cs).outcome ∧
      (s.run cs).2.taken = s.taken ++ (Run.ofChunksLimited room cs).writes := by
  induction cs generalizing s room with
  | nil => cases room <;> exact ⟨rfl, (List.append_nil _).symm⟩
  | cons c rest ih =>
    cases c with
    | error fault => cases room <;> exact ⟨rfl, (List.append_nil _).symm⟩
    | ok bytes =>
      cases room with
      | zero =>
        have full : s.limit ≤ s.attempts := limited.le
        simp only [run, write_of_le full]
        exact ⟨rfl, (List.append_nil _).symm⟩
      | succ room =>
        obtain ⟨here, later⟩ := room_succ limited
        obtain ⟨outcome, taken⟩ := @ih ⟨s.limit, s.attempts + 1, s.taken ++ [bytes]⟩ room later
        simp only [run, write_of_lt here, Run.ofChunksLimited]
        refine ⟨outcome, ?_⟩
        rw [taken, List.append_assoc]
        rfl

end Sink

/-- Writes the constraints behind an interface into a sink with a limit. -/
def exportInto (limit : ℕ∞) (F : Field) (i : Interface) (constraints : List Constraint) :
    Except Fault Unit × Sink :=
  match Sizing.compute F i constraints with
  | .error fault => (.error fault, .fresh limit)
  | .ok sizing => (Sink.fresh limit).run (chunks sizing constraints)

section Export

variable (F : Field) (i : Interface) (constraints : List Constraint)

theorem exportInto_of_le {limit : ℕ∞}
    (room : ((exportConstraints F i constraints).writes.length : ℕ∞) ≤ limit) :
    exportInto limit F i constraints = ((exportConstraints F i constraints).outcome,
      ⟨limit, (exportConstraints F i constraints).writes.length,
        (exportConstraints F i constraints).writes⟩) := by
  unfold exportInto
  unfold exportConstraints exportWith at room ⊢
  cases sized : Sizing.compute F i constraints with
  | error fault => rfl
  | ok sizing =>
    simp only [sized] at room ⊢
    rw [Sink.run_of_le (by rwa [Sink.fresh, Nat.zero_add]), Sink.fresh, Nat.zero_add, List.nil_append]

theorem exportInto_of_lt {n : Nat} (short : n < (exportConstraints F i constraints).writes.length) :
    exportInto n F i constraints = (.error .sinkFull,
      ⟨n, n + 1, (exportConstraints F i constraints).writes.take n⟩) := by
  unfold exportInto
  unfold exportConstraints exportWith at short ⊢
  cases sized : Sizing.compute F i constraints with
  | error fault =>
    simp only [sized] at short
    exact absurd short (Nat.not_lt_zero n)
  | ok sizing =>
    simp only [sized] at short ⊢
    rw [Sink.run_of_lt (by rw [Sink.fresh, Nat.zero_add]) short, Sink.fresh, Nat.zero_add, List.nil_append]

/-- The exporter with a limit does what the writes do to a sink with that limit. -/
theorem exportLimited_eq (n : Nat) :
    exportLimited n F i constraints =
      ⟨(exportInto n F i constraints).2.taken, (exportInto n F i constraints).1⟩ := by
  unfold exportLimited exportWith exportInto
  cases sized : Sizing.compute F i constraints with
  | error fault => rfl
  | ok sizing =>
    have limited : (Sink.fresh n).limit = ((Sink.fresh n).attempts + n : Nat) := by
      rw [Sink.fresh, Nat.zero_add]
    obtain ⟨outcome, taken⟩ := Sink.ofChunksLimited_run (chunks sizing constraints) limited
    have nothing : (Sink.fresh n).taken = [] := rfl
    rw [nothing, List.nil_append] at taken
    simp only [outcome, taken]

/-- A sink without a limit sees all writes of an export. A sink with room for these sees the same, and the
export ends in the same way. Any other sink sees as many of the first writes as it has room for, is refused
one more write, and sees nothing after that. -/
theorem exportInto_sees_prefix :
    exportInto ⊤ F i constraints = ((exportConstraints F i constraints).outcome,
      ⟨⊤, (exportConstraints F i constraints).writes.length,
        (exportConstraints F i constraints).writes⟩) ∧
    ∀ n : Nat,
      exportLimited n F i constraints =
        ⟨(exportInto n F i constraints).2.taken, (exportInto n F i constraints).1⟩ ∧
      ((exportConstraints F i constraints).writes.length ≤ n →
        exportInto n F i constraints = ((exportConstraints F i constraints).outcome,
          ⟨n, (exportConstraints F i constraints).writes.length,
            (exportConstraints F i constraints).writes⟩)) ∧
      (n < (exportConstraints F i constraints).writes.length →
        exportInto n F i constraints = (.error .sinkFull,
          ⟨n, n + 1, (exportConstraints F i constraints).writes.take n⟩)) :=
  ⟨exportInto_of_le F i constraints le_top, fun n => ⟨exportLimited_eq F i constraints n,
    fun room => exportInto_of_le F i constraints (Nat.cast_le.2 room), exportInto_of_lt F i constraints⟩⟩

end Export

/-- One program, of which a coefficient is too wide. A sink that takes three writes ends its export before that
coefficient is reached; with room for all writes before it, it is the coefficient that ends the export. -/
theorem exportInto_sees_prefix_wide :
    exportInto (3 : Nat) Field.seven (wideSample 1).interface (wideSample 1).constraints =
      (.error .sinkFull, ⟨3, 4, [magic, [1, 0, 0, 0], [3, 0, 0, 0]]⟩) ∧
    (exportInto (100 : Nat) Field.seven (wideSample 1).interface (wideSample 1).constraints).1 =
      .error (.tooWide 256 "1") := by
  obtain ⟨-, limited⟩ :=
    exportInto_sees_prefix Field.seven (wideSample 1).interface (wideSample 1).constraints
  obtain ⟨-, -, refused⟩ := limited 3
  obtain ⟨-, complete, -⟩ := limited 100
  constructor
  · rw [refused (by decide)]
    rfl
  · rw [complete (by decide)]
    rfl

end Circuit.R1cs

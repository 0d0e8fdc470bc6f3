import Circuit.Field.Bytes
import Circuit.R1cs.File

/-!
# Reading steps

A cursor walks over the bytes of a constraint file, and a reading step moves it or fails.

* `Step.bind_eq_ok` and `Step.pure_eq_ok` take a row of steps apart.
* `Cursor.take_eq_ok` says what a taken row of bytes is: it and the remaining bytes make up the bytes
  before.
-/

namespace Circuit.R1cs

/-- A place in a row of bytes: how many bytes were taken, and the bytes that remain. -/
structure Cursor where
  offset : Nat
  rest : Bytes
deriving Repr

abbrev Step := StateT Cursor (Except FormatError)

namespace Step

variable {α β : Type}

/-- A step that follows another starts where that one ends. -/
theorem bind_eq_ok {s : Step α} {next : α → Step β} {c e : Cursor} {b : β} :
    (s >>= next) c = .ok (b, e) ↔ ∃ a d, s c = .ok (a, d) ∧ next a d = .ok (b, e) := by
  change (s c >>= fun p => next p.1 p.2) = .ok (b, e) ↔ _
  cases s c with
  | error fault => exact ⟨fun h => (nomatch h), fun ⟨_, _, h, _⟩ => (nomatch h)⟩
  | ok p =>
      constructor
      · intro h
        exact ⟨p.1, p.2, rfl, h⟩
      · rintro ⟨a, d, h, hb⟩
        cases h
        exact hb

theorem pure_eq_ok {a b : α} {c d : Cursor} :
    (pure a : Step α) c = .ok (b, d) ↔ a = b ∧ c = d := by
  change Except.ok (a, c) = .ok (b, d) ↔ _
  simp

end Step

namespace Cursor

def ofBytes (bytes : Bytes) : Cursor := ⟨0, bytes⟩

def atEnd (c : Cursor) : Bool := c.rest.isEmpty

/-- The first `n` bytes and the others, when there are so many. -/
def splitExactly? : Nat → Bytes → Option (Bytes × Bytes)
  | 0, bytes => some ([], bytes)
  | _ + 1, [] => none
  | n + 1, b :: bytes =>
      match splitExactly? n bytes with
      | some (taken, rest) => some (b :: taken, rest)
      | none => none

def take (n : Nat) : Step Bytes := fun c =>
  match splitExactly? n c.rest with
  | some (taken, rest) => .ok (taken, ⟨c.offset + n, rest⟩)
  | none => .error (.truncated c.offset n)

/-- Takes an integer of `width` bytes. -/
def number (width : Nat) : Step Nat := do
  return Bytes.ofLittleEndian (← take width)

/-- Fails unless a condition holds. -/
def require (holds : Bool) (error : FormatError) : Step Unit :=
  if holds then pure () else throw error

/-- Fails unless all bytes are taken. -/
def requireEnd (error : FormatError) : Step Unit := do
  require (← get).atEnd error

theorem splitExactly?_eq_some {n : Nat} {bytes taken rest : Bytes} :
    splitExactly? n bytes = some (taken, rest) ↔ taken.length = n ∧ bytes = taken ++ rest := by
  induction n generalizing bytes taken with
  | zero =>
      constructor
      · intro h
        cases h
        exact ⟨rfl, rfl⟩
      · rintro ⟨empty, rfl⟩
        rw [List.eq_nil_of_length_eq_zero empty]
        rfl
  | succ n ih =>
      cases bytes with
      | nil =>
          refine ⟨fun h => (nomatch h), fun ⟨length, parts⟩ => ?_⟩
          rw [(List.append_eq_nil_iff.1 parts.symm).1] at length
          cases length
      | cons b bytes =>
          constructor
          · intro h
            rw [splitExactly?] at h
            split at h
            · rename_i inner others split
              cases h
              obtain ⟨length, parts⟩ := ih.1 split
              exact ⟨congrArg (· + 1) length, congrArg (b :: ·) parts⟩
            · cases h
          · rintro ⟨length, parts⟩
            cases taken with
            | nil => cases length
            | cons first taken =>
                obtain ⟨same, others⟩ := List.cons.inj parts
                rw [splitExactly?, ih.2 ⟨Nat.succ.inj length, others⟩, same]

/-- Exactly the first bytes are taken, and all of them. -/
theorem take_eq_ok {n : Nat} {c d : Cursor} {bytes : Bytes} :
    take n c = .ok (bytes, d) ↔
      bytes.length = n ∧ c.rest = bytes ++ d.rest ∧ d.offset = c.offset + n := by
  obtain ⟨offset, rest⟩ := d
  constructor
  · intro h
    rw [take] at h
    split at h
    · rename_i taken others split
      cases h
      exact ⟨(splitExactly?_eq_some.1 split).1, (splitExactly?_eq_some.1 split).2, rfl⟩
    · cases h
  · rintro ⟨length, parts, rfl⟩
    rw [take, splitExactly?_eq_some.2 ⟨length, parts⟩]

theorem number_shorter {width n : Nat} {c d : Cursor} (h : number width c = .ok (n, d)) :
    d.rest.length + width = c.rest.length := by
  obtain ⟨bytes, e, taken, h⟩ := Step.bind_eq_ok.1 h
  obtain ⟨_, rfl⟩ := Step.pure_eq_ok.1 h
  obtain ⟨length, parts, _⟩ := take_eq_ok.1 taken
  rw [parts, List.length_append, length, Nat.add_comm]

end Cursor

end Circuit.R1cs

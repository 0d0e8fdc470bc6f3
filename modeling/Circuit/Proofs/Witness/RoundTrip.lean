import Mathlib.Data.List.Forall2
import Circuit.Proofs.Witness.File

/-!
# Written witnesses

A witness is written with one line for each variable, in the order of the variables. Reading that gives the
witness back, if its values are elements of the field and its indices can be written. So is every witness that
was read from a file.

* `Witness.hasLines_write` and `Witness.assigns_row` say what is written.
* `Witness.read_write` reads it back, and `Witness.over_of_read` and `Witness.writable_of_read` say that this
  goes for what was read.
* `Witness.file_format` puts reading and writing together.
-/

namespace Circuit

open Circuit.Text

namespace Witness

/-- The values are those of elements of a field. -/
def Over (F : Field) (w : Witness) : Prop := ∀ v x, w.get? v = some x → 0 ≤ x ∧ x < F.modulus

/-- The indices of the variables have few enough digits to be written. -/
def Writable (w : Witness) : Prop := ∀ v x, w.get? v = some x → v.Writable

def row (e : Variable × Int) : List CodePoint := (ofString (e.1.text ++ " " ++ Decimal.ofInt e.2)).points

variable {F : Field} {w : Witness} {v : Variable} {x : Int}

/-! ### What is written -/

theorem isWord_text (v : Variable) : (ofString v.text).IsWord := by
  refine ⟨?_, List.forall_mem_map.2 v.isBlank_of_mem_text⟩
  cases v <;> simp [ofString, Variable.text]

theorem isWord_ofNat (n : Nat) : (ofString (Decimal.ofNat n)).IsWord := by
  refine ⟨by simp [ofString, Decimal.ofNat, Decimal.digits_ne_nil], List.forall_mem_map.2 fun c member => ?_⟩
  rw [Decimal.ofNat, String.toList_ofList] at member
  exact isBlank_of_isDigit (Decimal.isDigit_of_mem_digits member)

theorem row_natCast (v : Variable) (n : Nat) :
    row (v, n) = (entryLine (ofString v.text, ofString (Decimal.ofNat n))).points := by
  show (ofString (v.text ++ " " ++ Decimal.ofNat n)).points = _
  rw [ofString_append, ofString_append]
  rfl

theorem unbroken_row (v : Variable) (low : 0 ≤ x) : CodePoint.scalar '\n' ∉ row (v, x) := by
  obtain ⟨n, rfl⟩ := Int.eq_ofNat_of_zero_le low
  rw [row_natCast]
  exact unbroken_entryLine (isWord_text v) (isWord_ofNat n)

/-- The line of an entry assigns that entry. -/
theorem assigns_row (short : F.modulus ≤ 10 ^ Decimal.digitLimit) (writable : v.Writable) (low : 0 ≤ x)
    (high : x < F.modulus) : Assigns F (row (v, x)) v x := by
  obtain ⟨n, rfl⟩ := Int.eq_ofNat_of_zero_le low
  have below : n < F.modulus := Int.ofNat_lt.1 high
  have few : Decimal.isWritable n = true :=
    (Decimal.isWritable_natCast n).2 (Nat.lt_of_lt_of_le below short)
  rw [row_natCast, assigns_entryLine_iff (isWord_text v) (isWord_ofNat n)]
  exact ⟨v.parse_text writable, Json.integer_text (x := ⟨F, n, below⟩) few, low, high⟩

theorem ofString_write (w : Witness) : ofString w.write = Text.lines (w.lines.map ofString) := by
  unfold write
  induction w.lines with
  | nil => rfl
  | cons line rest ih =>
      rw [List.map_cons, String.join_cons, ofString_append, ofString_append, ih]
      rfl

/-- A witness is written line by line, with a line break behind the last one. -/
theorem hasLines_write (in_field : w.Over F) : (ofString w.write).HasLines (w.entries.map row ++ [[]]) := by
  have rows : (w.lines.map ofString).map Text.points = w.entries.map row := by
    simp only [lines, List.map_map]
    rfl
  rw [ofString_write, ← rows]
  refine hasLines_lines (List.forall_mem_map.2 (List.forall_mem_map.2 fun ⟨v, x⟩ member => ?_))
  exact unbroken_row v (in_field v x (mem_entries_iff.1 member)).1

/-! ### What is read back -/

section ReadBack

variable (short : F.modulus ≤ 10 ^ Decimal.digitLimit) (in_field : w.Over F) (writable : w.Writable)
include short in_field writable

theorem assigns_row_of_mem : ∀ e ∈ w.entries, Assigns F (row e) e.1 e.2 := by
  rintro ⟨v, x⟩ member
  have found := mem_entries_iff.1 member
  exact assigns_row short (writable v x found) (in_field v x found).1 (in_field v x found).2

/-- The lines name the variables in their order. -/
theorem ascending_rows :
    (w.entries.map row).Pairwise fun line later => ∀ v u, Names line v → Names later u → v.raw < u.raw := by
  have assigns := assigns_row_of_mem short in_field writable
  refine List.pairwise_map.2 (w.ascending.imp_of_mem fun {d e} d_member e_member less v u names names' => ?_)
  rw [← (assigns d d_member).names.unique names, ← (assigns e e_member).names.unique names']
  exact less

/-- The rows of a witness name each variable once. -/
theorem wellFormed_rows : WellFormed F (w.entries.map row ++ [[]]) := by
  refine (wellFormed_concat_blank_iff (List.forall_mem_nil _)).2 ⟨?_, ?_⟩
  · exact List.forall_mem_map.2 fun e member => .inr ⟨_, _, assigns_row_of_mem short in_field writable e member⟩
  · exact (ascending_rows short in_field writable).imp fun less v names names' =>
      Int.lt_irrefl _ (less v v names names')

theorem givenBy_rows : GivenBy F (w.entries.map row ++ [[]]) w := by
  have assigns := assigns_row_of_mem short in_field writable
  refine (givenBy_concat_blank_iff (List.forall_mem_nil _)).2 fun v x => ?_
  rw [← mem_entries_iff]
  constructor
  · intro member
    exact ⟨_, List.mem_map_of_mem member, assigns _ member⟩
  · rintro ⟨line, line_member, assigned⟩
    obtain ⟨e, member, rfl⟩ := List.mem_map.1 line_member
    obtain ⟨rfl, rfl⟩ := (assigns e member).unique assigned
    exact member

/-- A written witness is read back. -/
theorem read_write : read F w.write = .ok w :=
  (read_eq_ok_iff (hasLines_write in_field)).2
    ⟨wellFormed_rows short in_field writable, givenBy_rows short in_field writable⟩

end ReadBack

variable {text : Text}

/-- What is read from a file are values of elements. -/
theorem over_of_read (done : read F text = .ok w) : w.Over F := by
  obtain ⟨-, given⟩ := (read_eq_ok_iff (splitLines_eq_iff.1 rfl)).1 done
  intro v x found
  obtain ⟨_, _, _, _, _, _, -, reduced⟩ := (given v x).1 found
  exact reduced

theorem writable_of_read (done : read F text = .ok w) : w.Writable := by
  obtain ⟨-, given⟩ := (read_eq_ok_iff (splitLines_eq_iff.1 rfl)).1 done
  intro v x found
  obtain ⟨_, _, _, _, _, named, -⟩ := (given v x).1 found
  exact Variable.writable_of_parse named

/-! ### The format -/

/-- A witness over a field whose indices can be written is written with one line for each variable, in the
order of the variables, and read back, so that it is written the same again. A text is accepted exactly when
its lines are well-formed, as the witness of the values that they assign, in whatever order and with whatever
blank lines between them; and that witness can be written. Any other text is refused for the first line that
offends. -/
theorem file_format (F : Field) :
    (F.modulus ≤ 10 ^ Decimal.digitLimit → ∀ w : Witness, w.Over F → w.Writable →
      (∃ rows, (ofString w.write).HasLines (rows ++ [[]]) ∧
        List.Forall₂ (fun row e => Assigns F row e.1 e.2) rows w.entries ∧
        rows.Pairwise fun row later => ∀ v u, Names row v → Names later u → v.raw < u.raw) ∧
      ∃ u, read F w.write = .ok u ∧ u = w ∧ u.write = w.write) ∧
    ∀ text : Text, ∃ lines, text.HasLines lines ∧
      ((∃ w, read F text = .ok w) ↔ WellFormed F lines) ∧
      (∀ w, read F text = .ok w → GivenBy F lines w ∧ w.Over F ∧ w.Writable) ∧
      (∀ fault, read F text = .error fault ↔ FirstOffence F lines fault) ∧
      (∀ fault, read F text = .error fault → fault.kind = .value) ∧
      ∀ other others, other.HasLines others → SameContent lines others →
        ∀ w, read F text = .ok w → read F other = .ok w := by
  constructor
  · intro short w in_field writable
    refine ⟨⟨w.entries.map row, hasLines_write in_field, ?_, ascending_rows short in_field writable⟩,
      w, read_write short in_field writable, rfl, rfl⟩
    exact List.forall₂_map_left_iff.2 (List.forall₂_same.2 (assigns_row_of_mem short in_field writable))
  · intro text
    have has_lines : text.HasLines (splitLines text.points) := splitLines_eq_iff.1 rfl
    refine ⟨_, has_lines, exists_read_iff has_lines, ?_, fun fault => read_eq_error_iff has_lines, ?_, ?_⟩
    · intro w done
      exact ⟨((read_eq_ok_iff has_lines).1 done).2, over_of_read done, writable_of_read done⟩
    · intro fault refused
      exact ((read_eq_error_iff has_lines).1 refused).kind
    · intro other others has_others same w done
      exact read_of_sameContent has_lines has_others same done

/-- The square of three as the first result. -/
def nineFromThree : Witness := .ofList [(.pub 0, 9), (.loc 1 Nat.one_pos, 3)]

/-- The same with the lines in the other order, blank lines, and other spellings. -/
def looselyWritten : Text := "\n _0１\t+3\n\n~out_00 0_9"

/-- The lines of this that are not blank, in the other order again. -/
def reordered : Text := "~out_00 0_9\n _0１\t+3"

theorem sameContent_reordered :
    SameContent (splitLines looselyWritten.points) (splitLines reordered.points) := by
  unfold SameContent
  decide

/-- The witness is read from its own file, and from the others too. -/
theorem file_format_reordered :
    Field.scalars.modulus ≤ 10 ^ Decimal.digitLimit ∧ nineFromThree.Over Field.scalars ∧
      nineFromThree.Writable ∧ (∃ u, read Field.scalars nineFromThree.write = .ok u ∧ u = nineFromThree) ∧
      (∃ lines, looselyWritten.HasLines lines ∧ WellFormed Field.scalars lines ∧
        GivenBy Field.scalars lines nineFromThree) ∧
      read Field.scalars reordered = .ok nineFromThree := by
  have short : Field.scalars.modulus ≤ 10 ^ Decimal.digitLimit :=
    Nat.le_trans (by decide : Field.scalars.modulus ≤ 10 ^ 77) (Nat.pow_le_pow_right (by decide) (by decide))
  have done : read Field.scalars looselyWritten = .ok nineFromThree := rfl
  obtain ⟨written, accepted⟩ := file_format Field.scalars
  obtain ⟨lines, has_lines, iff, holds, -, -, same⟩ := accepted looselyWritten
  obtain ⟨given, in_field, writable⟩ := holds _ done
  obtain ⟨-, u, read_back, equal, -⟩ := written short nineFromThree in_field writable
  refine ⟨short, in_field, writable, ⟨u, read_back, equal⟩, ⟨lines, has_lines, iff.1 ⟨_, done⟩, given⟩, ?_⟩
  exact same reordered _ (splitLines_eq_iff.1 rfl) (splitLines_eq_iff.2 has_lines ▸ sameContent_reordered) _ done

end Witness

end Circuit

import Mathlib.Data.List.Forall2
import Mathlib.Data.Nat.Digits.Defs
import Circuit.Proofs.Decimal.Digits

/-!
# Literals

What the two readers of decimal text accept. A numeral is a run of digits of any scripts; a literal may also have
a sign, single underscores between its digits, and blanks around it. Neither may have more than `digitLimit`
digits.

* `Text.IsDigit` says which characters are digits, and `Text.digitValue?_eq_some_iff` that these are the ones
  found.
* `Decimal.Numeral` and `Decimal.Literal` are the two grammars.
* `Decimal.plainDigits?_eq_some_iff` and `Decimal.readInt?_eq_some_iff`: the readers accept just these.
-/

namespace Circuit.Text

/-! ### Digits of all scripts -/

/-- A character is the digit of a value in some script. -/
def IsDigit (c : Char) (d : Nat) : Prop := d < 10 ∧ ∃ first ∈ digitZeros, c.toNat = first + d

/-- The sets of digits do not overlap, so that a character has one value at most. -/
theorem digitZeros_apart : digitZeros.Pairwise fun first later => first + 10 ≤ later := by
  decide

theorem digitFrom?_eq_some_iff {c : Char} {first d : Nat} :
    digitFrom? c first = some d ↔ d < 10 ∧ c.toNat = first + d := by
  unfold digitFrom?
  split
  · rw [Option.some.injEq]
    omega
  · simp only [reduceCtorEq, false_iff]
    omega

/-- The sets of digits do not overlap, so that the first set with a character is the only one. -/
theorem digitValue?_eq_some_iff {c : Char} {d : Nat} : digitValue? c = some d ↔ IsDigit c d := by
  constructor
  · intro found
    obtain ⟨first, member, in_set⟩ := List.exists_of_findSome?_eq_some found
    obtain ⟨small, place⟩ := digitFrom?_eq_some_iff.1 in_set
    exact ⟨small, first, member, place⟩
  · intro ⟨small, first, member, place⟩
    obtain ⟨before, after, split⟩ := List.append_of_mem member
    have apart := digitZeros_apart
    rw [split, List.pairwise_append] at apart
    refine List.findSome?_eq_some_iff.2 ⟨before, first, after, split, digitFrom?_eq_some_iff.2 ⟨small, place⟩, ?_⟩
    intro earlier earlier_member
    have distance : earlier + 10 ≤ first := apart.2.2 earlier earlier_member first List.mem_cons_self
    exact if_neg (by omega)

/-- The sets of digits lie in the gaps between the blanks. -/
theorem digitZeros_clear : ∀ first ∈ digitZeros,
    (0x20 < first ∧ first + 10 ≤ 0x85) ∨ (0xa0 < first ∧ first + 10 ≤ 0x1680) ∨
      (0x1680 < first ∧ first + 10 ≤ 0x2000) ∨ 0x3000 < first := by
  decide

theorem IsDigit.isBlank {c : Char} {d : Nat} (digit : IsDigit c d) : isBlank c = false := by
  obtain ⟨small, first, member, place⟩ := digit
  have gap := digitZeros_clear first member
  simp [Text.isBlank]
  omega

theorem isNumberBlank_of_not_isBlank {c : Char} (clear : isBlank c = false) : isNumberBlank c = false := by
  simp [isNumberBlank, clear]

end Circuit.Text

namespace Circuit.Decimal

open Circuit.Text

/-! ### Numerals -/

/-- One or more digits, at most `digitLimit` of them, that denote a number. -/
def Numeral (cs : List Char) (n : Nat) : Prop :=
  ∃ ds, List.Forall₂ IsDigit cs ds ∧ ds ≠ [] ∧ ds.length ≤ digitLimit ∧ Nat.ofDigits 10 ds.reverse = n

/-- The value by the library's notion of digits, which has the lowest one first. -/
theorem value_eq_ofDigits (ds : List Nat) : value ds = Nat.ofDigits 10 ds.reverse := by
  rw [Nat.ofDigits_eq_foldr, List.foldr_reverse]
  simp only [value, Nat.cast_id, Nat.add_comm]

/-- The digits that are read are those of the row. -/
theorem plainDigits?_eq_some_iff {cs : List Char} {ds : List Nat} :
    plainDigits? cs = some ds ↔ List.Forall₂ IsDigit cs ds := by
  induction cs generalizing ds with
  | nil => simp [plainDigits?, eq_comm]
  | cons c cs ih =>
    rw [plainDigits?, List.forall₂_cons_left_iff]
    simp only [← digitValue?_eq_some_iff, ← ih]
    cases digitValue? c <;> cases plainDigits? cs <;> simp [eq_comm]

theorem Numeral.isBlank {cs : List Char} {n : Nat} (numeral : Numeral cs n) : ∀ c ∈ cs, isBlank c = false := by
  obtain ⟨ds, digits, -⟩ := numeral
  induction digits with
  | nil => exact List.forall_mem_nil _
  | cons digit _ ih => exact List.forall_mem_cons.2 ⟨digit.isBlank, ih⟩

/-- A number that can be written is written as a numeral. -/
theorem numeral_digits {n : Nat} (writable : isWritable n = true) : Numeral (digits n) n := by
  refine ⟨_, plainDigits?_eq_some_iff.1 (plainDigits?_digits n), ?_, ?_, ?_⟩
  · simpa using digits_ne_nil n
  · simpa using (length_digits_le_iff n).2 writable
  · rw [← value_eq_ofDigits]
    exact value_digits n

/-! ### Literals -/

/-- One or more digits, between any two of which a single underscore may stand, and their values. -/
inductive Grouped : List Char → List Nat → Prop
  | last {c : Char} {d : Nat} : IsDigit c d → Grouped [c] [d]
  | digit {c : Char} {d : Nat} {cs : List Char} {ds : List Nat} :
      IsDigit c d → Grouped cs ds → Grouped (c :: cs) (d :: ds)
  | underscore {c : Char} {d : Nat} {cs : List Char} {ds : List Nat} :
      IsDigit c d → Grouped cs ds → Grouped (c :: '_' :: cs) (d :: ds)

/-- Grouped digits, at most `digitLimit` of them, that denote a number. -/
def GroupedNumeral (cs : List Char) (n : Nat) : Prop :=
  ∃ ds, Grouped cs ds ∧ ds.length ≤ digitLimit ∧ Nat.ofDigits 10 ds.reverse = n

/-- A grouped numeral, with or without a sign. -/
inductive Literal : List Char → Int → Prop
  | unsigned {cs : List Char} {n : Nat} : GroupedNumeral cs n → Literal cs n
  | plus {cs : List Char} {n : Nat} : GroupedNumeral cs n → Literal ('+' :: cs) n
  | minus {cs : List Char} {n : Nat} : GroupedNumeral cs n → Literal ('-' :: cs) (-n)

theorem not_isDigit {c : Char} (no_digit : digitValue? c = none) (d : Nat) : ¬ IsDigit c d := by
  rw [← digitValue?_eq_some_iff, no_digit]
  nofun

/-- Grouped digits begin with a digit. -/
theorem not_grouped_cons {c : Char} {cs : List Char} {ds : List Nat} (no_digit : digitValue? c = none) :
    ¬ Grouped (c :: cs) ds := by
  intro grouped
  cases grouped with
  | last digit => exact not_isDigit no_digit _ digit
  | digit digit _ => exact not_isDigit no_digit _ digit
  | underscore digit _ => exact not_isDigit no_digit _ digit

/-- The digits that are read are those of the row. -/
theorem groupedDigits?_eq_some_iff {cs : List Char} {ds : List Nat} :
    groupedDigits? cs = some ds ↔ Grouped cs ds := by
  constructor
  · intro read
    fun_induction groupedDigits? cs generalizing ds with
    | case1 => cases read
    | case2 c =>
      obtain ⟨d, digit, rfl⟩ := Option.map_eq_some_iff.1 read
      exact .last (digitValue?_eq_some_iff.1 digit)
    | case3 c cs d ds' rest digit ih =>
      cases read
      exact .underscore (digitValue?_eq_some_iff.1 digit) (ih rest)
    | case4 => cases read
    | case5 c cs _ _ d ds' rest digit ih =>
      cases read
      exact .digit (digitValue?_eq_some_iff.1 digit) (ih rest)
    | case6 => cases read
  · intro grouped
    induction grouped with
    | last digit => simp [groupedDigits?, digitValue?_eq_some_iff.2 digit]
    | @digit c d cs ds digit grouped ih =>
      cases cs with
      | nil => cases grouped
      | cons e cs =>
        -- The next character is a digit, so it is not read as a separator.
        have separate : e ≠ '_' := by
          rintro rfl
          exact not_grouped_cons (by decide) grouped
        rw [groupedDigits?.eq_4 c (e :: cs) (by simp) (by simp [separate])]
        simp only [digitValue?_eq_some_iff.2 digit, ih]
    | underscore digit _ ih =>
      rw [groupedDigits?]
      simp only [digitValue?_eq_some_iff.2 digit, ih]

/-- The reader of digits accepts exactly the grammar. -/
theorem readGrouped?_eq_some_iff {cs : List Char} {n : Nat} :
    readGrouped? cs = some n ↔ GroupedNumeral cs n := by
  unfold readGrouped? GroupedNumeral
  simp only [← groupedDigits?_eq_some_iff, ← value_eq_ofDigits]
  cases groupedDigits? cs with
  | none => simp
  | some ds => simp

/-- A sign is put before what was read. -/
theorem map_readGrouped?_eq_some_iff {sign : Int → Int} {cs : List Char} {n : Int} :
    ((readGrouped? cs).map fun k => sign k) = some n ↔ ∃ k : Nat, GroupedNumeral cs k ∧ sign k = n := by
  simp only [← readGrouped?_eq_some_iff]
  cases readGrouped? cs <;> simp

theorem Grouped.isBlank {cs : List Char} {ds : List Nat} (grouped : Grouped cs ds) :
    ∀ c ∈ cs, isBlank c = false := by
  induction grouped with
  | last digit => exact List.forall_mem_singleton.2 digit.isBlank
  | digit digit _ ih => exact List.forall_mem_cons.2 ⟨digit.isBlank, ih⟩
  | underscore digit _ ih =>
    exact List.forall_mem_cons.2 ⟨digit.isBlank, List.forall_mem_cons.2 ⟨by decide, ih⟩⟩

theorem GroupedNumeral.isBlank {cs : List Char} {n : Nat} (numeral : GroupedNumeral cs n) :
    ∀ c ∈ cs, isBlank c = false := by
  obtain ⟨_, grouped, -⟩ := numeral
  exact grouped.isBlank

theorem Literal.isBlank {cs : List Char} {n : Int} (literal : Literal cs n) : ∀ c ∈ cs, isBlank c = false := by
  cases literal with
  | unsigned numeral => exact numeral.isBlank
  | plus numeral => exact List.forall_mem_cons.2 ⟨by decide, numeral.isBlank⟩
  | minus numeral => exact List.forall_mem_cons.2 ⟨by decide, numeral.isBlank⟩

theorem not_groupedNumeral_cons {c : Char} {cs : List Char} {n : Nat} (no_digit : digitValue? c = none) :
    ¬ GroupedNumeral (c :: cs) n := by
  rintro ⟨_, grouped, -⟩
  exact not_grouped_cons no_digit grouped

/-- An integer is read exactly from a literal with blanks around it. -/
theorem readInt?_eq_some_iff {cs : List Char} {n : Int} :
    readInt? cs = some n ↔ ∃ core, Padded isNumberBlank core cs ∧ Literal core n := by
  constructor
  · intro read
    refine ⟨_, padded_stripBy isNumberBlank cs, ?_⟩
    unfold readInt? at read
    split at read
    next ds split =>
      obtain ⟨k, numeral, rfl⟩ := map_readGrouped?_eq_some_iff.1 read
      exact split ▸ .minus numeral
    next ds split =>
      obtain ⟨k, numeral, rfl⟩ := map_readGrouped?_eq_some_iff.1 read
      exact split ▸ .plus numeral
    next =>
      obtain ⟨k, numeral, rfl⟩ := map_readGrouped?_eq_some_iff.1 read
      exact .unsigned numeral
  · rintro ⟨core, padded, literal⟩
    have clear : ∀ c ∈ core, isNumberBlank c = false := fun c member =>
      isNumberBlank_of_not_isBlank (literal.isBlank c member)
    unfold readInt?
    rw [stripBy_of_padded clear padded]
    cases literal with
    | unsigned numeral =>
      -- A sign is no digit.
      split
      next => exact absurd numeral (not_groupedNumeral_cons (by decide))
      next => exact absurd numeral (not_groupedNumeral_cons (by decide))
      next => exact map_readGrouped?_eq_some_iff.2 ⟨_, numeral, rfl⟩
    | plus numeral => exact map_readGrouped?_eq_some_iff.2 ⟨_, numeral, rfl⟩
    | minus numeral => exact map_readGrouped?_eq_some_iff.2 ⟨_, numeral, rfl⟩

/-- A literal denotes one integer: signs and underscores leave no choice. -/
theorem Literal.unique {cs : List Char} {m n : Int} (first : Literal cs m) (second : Literal cs n) : m = n := by
  have read : ∀ {k}, Literal cs k → readInt? cs = some k := fun literal =>
    readInt?_eq_some_iff.2 ⟨cs, .refl _ cs, literal⟩
  exact Option.some.inj ((read first).symm.trans (read second))

end Circuit.Decimal

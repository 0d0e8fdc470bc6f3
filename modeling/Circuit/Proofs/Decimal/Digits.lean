import Mathlib.Algebra.Ring.Nat
import Mathlib.Tactic.IntervalCases
import Circuit.Decimal.Basic
import Circuit.Proofs.Text.Words

/-!
# Decimal text read back

What is written in decimal is read back, by both readers, as long as it has few enough digits. What a
reader accepts has few enough digits to be written.

* `readInt?_digits` and `plainDigits?_digits` read the digits of a number.
* `isWritable_value`: a run of at most `digitLimit` digits denotes a number that can be written.
* `plain_digits`: a number is written in ASCII digits without leading zeros.
-/

namespace Circuit.Text

theorem toNat_of_isDigit {c : Char} (digit : c.isDigit = true) : 48 ≤ c.toNat ∧ c.toNat ≤ 57 := by
  simpa [Char.isDigit, UInt32.le_iff_toNat_le] using digit

theorem isBlank_of_isDigit {c : Char} (digit : c.isDigit = true) : isBlank c = false := by
  have range := toNat_of_isDigit digit
  simp [isBlank]
  omega

/-- The digits of ASCII come first in the table of digits. -/
theorem digitValue?_of_isDigit {c : Char} (digit : c.isDigit = true) :
    digitValue? c = some (c.toNat - 48) := by
  have range := toNat_of_isDigit digit
  have first : digitFrom? c 0x30 = some (c.toNat - 48) := if_pos ⟨range.1, by omega⟩
  simp only [digitValue?, digitZeros, List.findSome?_cons, first]

end Circuit.Text

namespace Circuit.Decimal

open Circuit.Text

theorem isWritable_natCast (n : Nat) : isWritable n = true ↔ n < 10 ^ digitLimit := by
  simp [isWritable]

theorem isWritable_of_lt {n k : Nat} (small : n < 10 ^ k) (few : k ≤ digitLimit) :
    isWritable n = true :=
  (isWritable_natCast n).2 (Nat.lt_of_lt_of_le small (Nat.pow_le_pow_right (by decide) few))

theorem digits_ne_nil (n : Nat) : digits n ≠ [] := Nat.toDigits_ne_nil

theorem isDigit_of_mem_digits {n : Nat} {c : Char} (member : c ∈ digits n) : c.isDigit = true :=
  Nat.isDigit_of_mem_toDigits (by decide) (by decide) member

/-- A number can be written exactly when it has few enough digits. -/
theorem length_digits_le_iff (n : Nat) : (digits n).length ≤ digitLimit ↔ isWritable n = true := by
  rw [isWritable_natCast]
  exact Nat.length_toDigits_le_iff (by decide) (by decide)

/-- Some digits of ASCII, the first of them no zero unless it stands alone. -/
structure Plain (cs : List Char) : Prop where
  digits : ∀ c ∈ cs, c.isDigit = true
  nonempty : cs ≠ []
  leading : cs.head? = some '0' → cs = ['0']

theorem digits_zero : digits 0 = ['0'] := rfl

/-- Only zero is written with a zero in front. -/
theorem eq_zero_of_head?_digits {n : Nat} (zero : (digits n).head? = some '0') : n = 0 := by
  induction n using Nat.strong_induction_on with
  | _ n ih =>
    unfold digits at zero
    rw [Nat.toDigits_eq_if (by decide)] at zero
    split at zero
    next small =>
      have first : n.digitChar = '0' := by simpa using zero
      interval_cases n <;> simp_all [Nat.digitChar]
    next large =>
      -- The digits of a tenth come first.
      obtain ⟨c, cs, split⟩ := List.exists_cons_of_ne_nil (digits_ne_nil (n / 10))
      unfold digits at split ih
      rw [split, List.cons_append, List.head?_cons] at zero
      have tenth : n / 10 = 0 := ih (n / 10) (by omega) (by rw [split, List.head?_cons, zero])
      omega

/-- The digits that are written have no zero in front. -/
theorem plain_digits (n : Nat) : Plain (digits n) where
  digits _ := isDigit_of_mem_digits
  nonempty := digits_ne_nil n
  leading zero := by rw [eq_zero_of_head?_digits zero, digits_zero]

/-! ### Reading digits -/

theorem plainDigits?_of_isDigit {cs : List Char} (all : ∀ c ∈ cs, c.isDigit = true) :
    plainDigits? cs = some (cs.map fun c => c.toNat - 48) := by
  induction cs with
  | nil => rfl
  | cons c cs ih =>
      have first := digitValue?_of_isDigit (all c List.mem_cons_self)
      have others := ih fun d member => all d (List.mem_cons_of_mem c member)
      simp only [plainDigits?, first, others, List.map_cons]

theorem groupedDigits?_of_isDigit {cs : List Char} (some_digit : cs ≠ [])
    (all : ∀ c ∈ cs, c.isDigit = true) :
    groupedDigits? cs = some (cs.map fun c => c.toNat - 48) := by
  induction cs with
  | nil => exact absurd rfl some_digit
  | cons c cs ih =>
      have first := digitValue?_of_isDigit (all c List.mem_cons_self)
      have rest_all : ∀ d ∈ cs, d.isDigit = true := fun d member =>
        all d (List.mem_cons_of_mem c member)
      cases cs with
      | nil => simp [groupedDigits?, first]
      | cons d cs =>
          have others := ih (List.cons_ne_nil d cs) rest_all
          -- The second character is a digit, so it is not read as a separator.
          have digit : d ≠ '_' := by
            rintro rfl
            exact absurd (rest_all '_' List.mem_cons_self) (by decide)
          rw [groupedDigits?.eq_4 c (d :: cs) (by simp) (by simp [digit])]
          simp only [first, others, List.map_cons]

/-- The number that its digits denote. -/
theorem value_digits (n : Nat) : value ((digits n).map fun c => c.toNat - 48) = n := by
  have read : Nat.ofDigitChars 10 (digits n) 0 = n := Nat.ofDigitChars_ten_toDigits
  rw [Nat.ofDigitChars_eq_foldl] at read
  unfold value
  rw [List.foldl_map]
  exact read

theorem digits_inj {m n : Nat} : digits m = digits n ↔ m = n := by
  constructor
  · intro same
    rw [← value_digits m, same, value_digits n]
  · exact congrArg digits

theorem plainDigits?_digits (n : Nat) :
    plainDigits? (digits n) = some ((digits n).map fun c => c.toNat - 48) :=
  plainDigits?_of_isDigit fun _ => isDigit_of_mem_digits

/-- What is written can be read, up to the limit on digits. -/
theorem readGrouped?_digits {n : Nat} (writable : isWritable n = true) :
    readGrouped? (digits n) = some n := by
  have short := (length_digits_le_iff n).2 writable
  have read : groupedDigits? (digits n) = some ((digits n).map fun c => c.toNat - 48) :=
    groupedDigits?_of_isDigit (digits_ne_nil n) fun _ => isDigit_of_mem_digits
  unfold readGrouped?
  rw [read]
  simp only [List.length_map, short, if_true, value_digits]

/-- The digits of a number that can be written are read as that number. -/
theorem readInt?_digits {n : Nat} (writable : isWritable n = true) :
    readInt? (digits n) = some (n : Int) := by
  have bare : stripBy isNumberBlank (digits n) = digits n := by
    refine stripBy_eq_self fun c member => ?_
    simp [isNumberBlank, isBlank_of_isDigit (isDigit_of_mem_digits member)]
  have unsigned : ∀ c ds, digits n = c :: ds → c ≠ '-' ∧ c ≠ '+' := by
    intro c ds split
    have digit : c.isDigit = true := isDigit_of_mem_digits (split ▸ List.mem_cons_self)
    constructor <;> rintro rfl <;> exact absurd digit (by decide)
  unfold readInt?
  rw [bare]
  split
  next ds split => exact absurd rfl (unsigned '-' ds split).1
  next ds split => exact absurd rfl (unsigned '+' ds split).2
  next =>
    rw [readGrouped?_digits writable]
    rfl

/-! ### The size of what is read -/

theorem forall_lt_of_plainDigits? {cs : List Char} {ds : List Nat} (read : plainDigits? cs = some ds) :
    ∀ d ∈ ds, d < 10 := by
  induction cs generalizing ds with
  | nil =>
      obtain rfl : [] = ds := Option.some.inj read
      exact fun d member => absurd member List.not_mem_nil
  | cons c cs ih =>
      unfold plainDigits? at read
      split at read
      next first rest first_read rest_read =>
        obtain rfl : first :: rest = ds := Option.some.inj read
        exact List.forall_mem_cons.2 ⟨digitValue?_lt first_read, ih rest_read⟩
      next => cases read

theorem foldl_lt {ds : List Nat} (small : ∀ d ∈ ds, d < 10) (start : Nat) :
    ds.foldl (fun n d => 10 * n + d) start < (start + 1) * 10 ^ ds.length := by
  induction ds generalizing start with
  | nil => simp
  | cons d ds ih =>
      have head : d < 10 := small d List.mem_cons_self
      calc (d :: ds).foldl (fun n d => 10 * n + d) start
          < (10 * start + d + 1) * 10 ^ ds.length :=
            ih (fun e member => small e (List.mem_cons_of_mem d member)) _
        _ ≤ ((start + 1) * 10) * 10 ^ ds.length := Nat.mul_le_mul_right _ (by omega)
        _ = (start + 1) * 10 ^ (d :: ds).length := by
            rw [List.length_cons, Nat.pow_succ, Nat.mul_assoc, Nat.mul_comm 10]

/-- Few digits denote a number that can be written. -/
theorem isWritable_value {ds : List Nat} (small : ∀ d ∈ ds, d < 10)
    (short : ds.length ≤ digitLimit) : isWritable (value ds) = true := by
  refine isWritable_of_lt ?_ short
  calc value ds < (0 + 1) * 10 ^ ds.length := foldl_lt small 0
    _ = 10 ^ ds.length := by rw [Nat.zero_add, Nat.one_mul]

end Circuit.Decimal

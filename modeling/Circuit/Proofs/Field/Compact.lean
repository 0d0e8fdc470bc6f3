import Circuit.Proofs.Decimal.Literal
import Circuit.Proofs.Field.Residue
import Circuit.Proofs.Field.Text

/-!
# Elements as people see them

People are shown the integer of least absolute value that an element stands for, a negative one between
parentheses.

* `Element.centered` is that integer: `Element.centered_modEq` and `Element.centered_bound`.
* `Element.toList_compact` and `Element.shows_compact_iff` say how it is shown.
* `Element.compact_inj`: elements of one field are told apart by what is shown.
-/

namespace Circuit

open Circuit.Text Circuit.Decimal

namespace Decimal

/-- The text for people denotes an integer: a literal, between parentheses if the integer is negative. -/
inductive Shows : List Char → Int → Prop
  | natural {cs : List Char} {n : Int} : Literal cs n → 0 ≤ n → Shows cs n
  | negative {cs : List Char} {n : Int} : Literal cs n → n < 0 → Shows ('(' :: (cs ++ [')'])) n

def shown : Int → List Char
  | .ofNat n => digits n
  | .negSucc n => '(' :: '-' :: (digits (n + 1) ++ [')'])

theorem not_literal_paren {cs : List Char} {n : Int} : ¬ Literal ('(' :: cs) n := by
  intro literal
  cases literal with
  | unsigned numeral => exact not_groupedNumeral_cons (by decide) numeral

/-- A text denotes one integer at most. -/
theorem Shows.unique {cs : List Char} {m n : Int} (first : Shows cs m) (second : Shows cs n) : m = n := by
  cases first with
  | natural literal _ =>
    cases second with
    | natural literal' _ => exact literal.unique literal'
    | negative => exact absurd literal not_literal_paren
  | negative literal _ =>
    generalize closed : '(' :: (_ ++ [')']) = cs at second
    cases second with
    | natural literal' _ => exact absurd (closed ▸ literal') not_literal_paren
    | negative literal' _ =>
      have same := List.append_cancel_right (List.cons.inj closed).2
      exact literal.unique (same ▸ literal')

theorem digits_ne_paren (n : Nat) (cs : List Char) : digits n ≠ '(' :: cs := by
  intro same
  have digit : ('(' : Char).isDigit = true := isDigit_of_mem_digits (same ▸ List.mem_cons_self)
  exact absurd digit (by decide)

/-- The texts of integers for people tell them apart: a parenthesis is no part of a literal. -/
theorem shown_inj {m n : Int} : shown m = shown n ↔ m = n := by
  constructor
  · intro same
    match m, n with
    | .ofNat m, .ofNat n => rw [digits_inj.1 same]
    | .ofNat m, .negSucc n => exact absurd same (digits_ne_paren m _)
    | .negSucc m, .ofNat n => exact absurd same.symm (digits_ne_paren n _)
    | .negSucc m, .negSucc n =>
      simp only [shown, List.cons.injEq, true_and] at same
      have equal : m + 1 = n + 1 := digits_inj.1 (List.append_cancel_right same)
      rw [Nat.succ.inj equal]
  · exact congrArg shown

/-- An integer that can be written is shown by characters that denote it. -/
theorem shows_shown {n : Int} (writable : isWritable n = true) : Shows (shown n) n := by
  have size : isWritable (n.natAbs : Int) = true := by
    unfold isWritable at writable ⊢
    rwa [Int.natAbs_natCast]
  have numeral := readGrouped?_eq_some_iff.1 (readGrouped?_digits size)
  cases n with
  | ofNat n => exact .natural (.unsigned numeral) (Int.natCast_nonneg n)
  | negSucc n =>
    show Shows ('(' :: ('-' :: digits (n + 1) ++ [')'])) _
    exact .negative (.minus numeral) (Int.negSucc_lt_zero n)

end Decimal

namespace Element

/-- The integer of least absolute value that an element stands for; of two such integers the negative one. -/
def centered (x : Element) : Int :=
  if x.value ≤ (x.field.modulus - 1) / 2 then x.value else x.value - x.field.modulus

variable {x y : Element}

theorem centered_modEq (x : Element) : x.centered ≡ x.toInt [ZMOD x.field.modulus] := by
  unfold centered
  split
  · rfl
  · exact Int.modEq_iff_dvd.2 ⟨1, by unfold toInt; omega⟩

/-- No other integer of the residue is nearer to zero. -/
theorem centered_bound (x : Element) : 2 * x.centered.natAbs ≤ x.field.modulus := by
  have reduced := x.reduced
  unfold centered
  split <;> omega

theorem toList_compact (x : Element) : x.compact.toList = shown x.centered := by
  have reduced := x.reduced
  unfold compact centered
  split
  · simp [text, ofNat, shown]
  · obtain ⟨k, distance⟩ := Nat.exists_eq_add_of_lt reduced
    have negative : (x.value : Int) - x.field.modulus = .negSucc k := by omega
    have positive : x.field.modulus - x.value = k + 1 := by omega
    rw [negative, positive]
    simp [ofNat, shown]

/-- What is shown denotes this integer and no other. -/
theorem shows_compact_iff (short : x.field.modulus ≤ 10 ^ digitLimit) {n : Int} :
    Shows x.compact.toList n ↔ n = x.centered := by
  have bound := x.centered_bound
  have positive := x.field.positive
  have writable : isWritable x.centered = true := by
    unfold isWritable
    rw [decide_eq_true_eq, Nat.pow_eq]
    omega
  rw [toList_compact]
  constructor
  · intro shows_n
    exact shows_n.unique (shows_shown writable)
  · rintro rfl
    exact shows_shown writable

/-- Elements of one field are told apart by what is shown. -/
theorem compact_inj (field : x.field = y.field) : x.compact = y.compact ↔ x = y := by
  constructor
  · intro same
    have integers : x.centered = y.centered := shown_inj.1 (by rw [← toList_compact, same, toList_compact])
    refine Field.ext_modEq field ?_
    calc x.toInt
        ≡ x.centered [ZMOD y.field.modulus] := field ▸ (centered_modEq x).symm
      _ = y.centered := integers
      _ ≡ y.toInt [ZMOD y.field.modulus] := centered_modEq y
  · exact congrArg compact

end Element

end Circuit

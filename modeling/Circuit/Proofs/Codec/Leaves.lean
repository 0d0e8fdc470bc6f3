import Circuit.Proofs.Decimal.Literal
import Circuit.Proofs.Field.Residue
import Circuit.Proofs.Field.Text
import Circuit.Proofs.Variable.Text

/-!
# Leaf texts

At the leaves of every text format stand variables and elements. Both are read from a whole grammar of spellings,
and written in the plainest one.

* `Text.HasCore` takes a text apart into a core and the blanks around it.
* `Variable.SpelledBy` are the spellings of a variable: `Variable.parse_eq_ok_iff` and `Variable.spelled_text`.
* `Field.parse_eq_ok_iff`: an element is read from a literal of its value, which is reduced already.
* `leafTexts_exact` puts these together.
-/

namespace Circuit

open Circuit.Text Circuit.Decimal

/-- A text consists of characters: a core, and members of a class around it. -/
def Text.HasCore (p : Char → Bool) (core : List Char) (t : Text) : Prop :=
  ∃ cs : List Char, t = ofString (String.ofList cs) ∧ Padded p core cs

/-- The core without blanks is what is left by stripping. -/
theorem Text.hasCore_iff {core : List Char} (clear : ∀ c ∈ core, isBlank c = false) (t : Text) :
    t.HasCore isBlank core ↔ t.scalars?.map strip = some core := by
  rw [Option.map_eq_some_iff]
  simp only [scalars?_eq_some]
  constructor
  · rintro ⟨cs, chars, padded⟩
    exact ⟨cs, chars, stripBy_of_padded clear padded⟩
  · rintro ⟨cs, chars, rfl⟩
    exact ⟨cs, chars, padded_stripBy isBlank cs⟩

/-! ### Variables -/

namespace Variable

/-- The spellings of a variable, given those of numbers: its mark alone, or its mark and its index. -/
inductive SpelledBy (Number : List Char → Nat → Prop) : Variable → List Char → Prop
  | one : SpelledBy Number .one ['~', 'o', 'n', 'e']
  | pub {index : Nat} {ds : List Char} :
      Number ds index → SpelledBy Number (.pub index) ('~' :: 'o' :: 'u' :: 't' :: '_' :: ds)
  | loc {id : Nat} {ds : List Char} (positive : 0 < id) :
      Number ds id → SpelledBy Number (.loc id positive) ('_' :: ds)

variable {t : Text} {v : Variable} {core : List Char}

theorem SpelledBy.isBlank (spelled : v.SpelledBy Numeral core) : ∀ c ∈ core, isBlank c = false := by
  cases spelled with
  | one => simp [Text.isBlank]
  | pub numeral => simpa [Text.isBlank] using numeral.isBlank
  | loc _ numeral => simpa [Text.isBlank] using numeral.isBlank

theorem make_loc_eq_ok_iff {n : Nat} : make .loc n = .ok v ↔ ∃ positive : 0 < n, v = .loc n positive := by
  by_cases positive : 0 < n
  · simp [make_loc positive, positive, eq_comm]
  · simp [make, positive]

/-- The digits of an index are those of a number, and the kind has the last word. -/
theorem parseIndex_eq_ok_iff {whole : Text} {kind : Kind} {cs : List Char} :
    parseIndex whole kind cs = .ok v ↔ ∃ n : Nat, Numeral cs n ∧ make kind n = .ok v := by
  constructor
  · intro read
    unfold parseIndex at read
    split at read
    next c cs ds digits =>
      split at read
      next short =>
        have numeral := plainDigits?_eq_some_iff.1 digits
        have some_digit : ds ≠ [] := List.ne_nil_of_length_pos (by simp [← numeral.length_eq])
        exact ⟨_, ⟨ds, numeral, some_digit, short, (value_eq_ofDigits ds).symm⟩, read⟩
      next => cases read
    next => cases read
  · rintro ⟨n, ⟨ds, digits, some_digit, short, rfl⟩, made⟩
    have read := plainDigits?_eq_some_iff.2 digits
    cases digits with
    | nil => exact absurd rfl some_digit
    | cons digit others =>
      unfold parseIndex
      rw [read]
      simp only [short, if_true, value_eq_ofDigits]
      exact made

/-- A text is read as a variable exactly if it spells that variable, with blanks around it. -/
theorem parse_eq_ok_iff : parse t = .ok v ↔ ∃ core, t.HasCore isBlank core ∧ v.SpelledBy Numeral core := by
  constructor
  · intro read
    have spelled : ∃ core, t.scalars?.map strip = some core ∧ v.SpelledBy Numeral core := by
      unfold parse at read
      split at read
      next found =>
        cases read
        exact ⟨_, found, .one⟩
      next ds found =>
        obtain ⟨n, numeral, made⟩ := parseIndex_eq_ok_iff.1 read
        cases (make_pub n).symm.trans made
        exact ⟨_, found, .pub numeral⟩
      next ds found =>
        obtain ⟨n, numeral, made⟩ := parseIndex_eq_ok_iff.1 read
        obtain ⟨positive, rfl⟩ := make_loc_eq_ok_iff.1 made
        exact ⟨_, found, .loc positive numeral⟩
      next => cases read
    obtain ⟨core, found, spelled⟩ := spelled
    exact ⟨core, (t.hasCore_iff spelled.isBlank).2 found, spelled⟩
  · rintro ⟨core, has_core, spelled⟩
    have found := (t.hasCore_iff spelled.isBlank).1 has_core
    unfold parse
    rw [found]
    cases spelled with
    | one => rfl
    | pub numeral => exact parseIndex_eq_ok_iff.2 ⟨_, numeral, make_pub _⟩
    | loc positive numeral => exact parseIndex_eq_ok_iff.2 ⟨_, numeral, make_loc positive⟩

/-- The text of a variable is its plain spelling. -/
theorem spelled_text (writable : v.Writable) :
    v.SpelledBy (fun ds n => Numeral ds n ∧ Plain ds) v.text.toList := by
  cases v with
  | one => exact .one
  | pub index =>
    rw [toList_text_pub]
    exact .pub ⟨numeral_digits writable, plain_digits index⟩
  | loc id positive =>
    rw [toList_text_loc]
    exact .loc positive ⟨numeral_digits writable, plain_digits id⟩

end Variable

/-! ### Elements -/

/-- Strings stand for integers as literals do, with blanks around them. -/
theorem Json.integer_str_eq_ok_iff {t : Text} {n : Int} :
    Json.integer (.str t) = .ok n ↔ ∃ core, t.HasCore isNumberBlank core ∧ Literal core n := by
  have read : t.scalars?.bind readInt? = some n ↔ ∃ core, t.HasCore isNumberBlank core ∧ Literal core n := by
    rw [Option.bind_eq_some_iff]
    simp only [scalars?_eq_some, readInt?_eq_some_iff, Text.HasCore]
    constructor
    · rintro ⟨cs, chars, core, padded, literal⟩
      exact ⟨core, ⟨cs, chars, padded⟩, literal⟩
    · rintro ⟨core, ⟨cs, chars, padded⟩, literal⟩
      exact ⟨cs, chars, core, padded, literal⟩
  rw [← read, integer]
  cases t.scalars?.bind readInt? <;> simp

namespace Field

variable {F : Field} {t : Text} {x : Element}

/-- A text is read as an element exactly if it is a literal of the element's value, with blanks around it. -/
theorem parse_eq_ok_iff : F.parse t = .ok x ↔ ∃ core n, t.HasCore isNumberBlank core ∧ Literal core n ∧
    0 ≤ n ∧ n < F.modulus ∧ x.field = F ∧ x.toInt = n := by
  constructor
  · intro read
    obtain ⟨integer, low, high⟩ := exists_read_iff.1 ⟨x, read, rfl⟩
    obtain ⟨core, has_core, literal⟩ := Json.integer_str_eq_ok_iff.1 integer
    exact ⟨core, _, has_core, literal, low, high, field_of_read read, rfl⟩
  · rintro ⟨core, n, has_core, literal, low, high, own, rfl⟩
    have integer := Json.integer_str_eq_ok_iff.2 ⟨core, has_core, literal⟩
    obtain ⟨y, read, value⟩ := exists_read_iff.2 ⟨integer, low, high⟩
    have same : y = x := ext_modEq ((field_of_read read).trans own.symm) (by rw [value])
    exact same ▸ read

/-- The text of an element is read as that element. -/
theorem parse_text (short : F.modulus ≤ 10 ^ digitLimit) (own : x.field = F) : F.parse x.text = .ok x := by
  subst own
  have writable : x.Writable := (isWritable_natCast _).2 (Nat.lt_of_lt_of_le x.reduced short)
  show x.field.read x.encode = .ok x
  rw [read_encode x.field writable, if_pos x.reduced, Element.recast_self]

end Field

/-! ### Both -/

/-- A text is read as a variable exactly if stripped of blanks it spells that variable, by a mark and at most
`digitLimit` digits of any scripts; the variable is written in plain digits, and read back from that. A text is
read as an element exactly if it is a literal of an integer below the modulus, which is then the integer of the
element; and an element is read back from its own text. -/
theorem leafTexts_exact :
    (∀ (t : Text) (v : Variable), Variable.parse t = .ok v ↔
      ∃ core, t.HasCore isBlank core ∧ v.SpelledBy Numeral core) ∧
    (∀ (t : Text) (v : Variable), Variable.parse t = .ok v →
      v.SpelledBy (fun ds n => Numeral ds n ∧ Plain ds) v.text.toList) ∧
    (∀ v : Variable, v.Writable → Variable.parse v.text = .ok v) ∧
    (∀ (F : Field) (t : Text) (x : Element), F.parse t = .ok x ↔
      ∃ core n, t.HasCore isNumberBlank core ∧ Literal core n ∧ 0 ≤ n ∧ n < F.modulus ∧ x.field = F ∧
        x.toInt = n) ∧
    ∀ (F : Field) (x : Element), x.field = F → F.modulus ≤ 10 ^ digitLimit → F.parse x.text = .ok x := by
  refine ⟨fun t v => Variable.parse_eq_ok_iff, ?_, Variable.parse_text, fun F t x => Field.parse_eq_ok_iff, ?_⟩
  · intro t v read
    exact Variable.spelled_text (Variable.writable_of_parse read)
  · intro F x own short
    exact Field.parse_text short own

/-- A slot in digits of two scripts with a zero in front, and the greatest element of the usual field. -/
theorem leafTexts_exact_mixed :
    (Variable.parse " ~out_٠0７\n" = .ok (.pub 7) ∧
      (∃ core, (" ~out_٠0７\n" : Text).HasCore isBlank core ∧ (Variable.pub 7).SpelledBy Numeral core) ∧
      (Variable.pub 7).SpelledBy (fun ds n => Numeral ds n ∧ Plain ds) (Variable.pub 7).text.toList) ∧
    ((Variable.pub 7).Writable ∧ Variable.parse (Variable.pub 7).text = .ok (.pub 7)) ∧
    Field.scalars.modulus ≤ 10 ^ digitLimit ∧
      (Field.scalars.element (-1)).field = Field.scalars ∧
      Field.scalars.parse (Field.scalars.element (-1)).text = .ok (Field.scalars.element (-1)) := by
  obtain ⟨spellings, plain, written, -, elements⟩ := leafTexts_exact
  have read : Variable.parse " ~out_٠0７\n" = .ok (.pub 7) := rfl
  have writable : (Variable.pub 7).Writable := Variable.writable_of_parse read
  exact ⟨⟨read, (spellings _ _).1 read, plain _ _ read⟩, ⟨writable, written _ writable⟩, Field.short_scalars,
    rfl, elements _ _ rfl Field.short_scalars⟩

end Circuit

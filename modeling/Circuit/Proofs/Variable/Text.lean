import Circuit.Proofs.Decimal.Digits
import Circuit.Proofs.Except
import Circuit.Variable.Reading

/-!
# The texts of variables

The text of a variable is read as that variable, as long as its index can be written. No variable that
was read has a longer index.

* `Variable.text_inj`: variables are told apart by their texts.
* `Variable.parse_text` and `Variable.writable_of_parse`.
* `Variable.kind_of_parse`: a text that names no variable is a wrong value.
-/

namespace Circuit.Variable

open Circuit.Text Circuit.Decimal

/-- The index of a variable has few enough digits to be written. -/
def Writable (v : Variable) : Prop := isWritable v.index = true

theorem writable_one : Writable .one := isWritable_of_lt (by decide : 0 < 10 ^ 1) (by decide)

theorem toList_text_one : (text .one).toList = ['~', 'o', 'n', 'e'] := rfl

theorem toList_text_pub (index : Nat) :
    (text (.pub index)).toList = '~' :: 'o' :: 'u' :: 't' :: '_' :: digits index := by
  simp [text, ofNat]

theorem toList_text_loc (id : Nat) (positive : 0 < id) :
    (text (.loc id positive)).toList = '_' :: digits id := by
  simp [text, ofNat]

/-- Different variables have different texts. -/
theorem text_inj {v u : Variable} : v.text = u.text ↔ v = u := by
  constructor
  · intro same
    have same := congrArg String.toList same
    cases v <;> cases u <;>
      simp [toList_text_one, toList_text_pub, toList_text_loc, digits_inj] at same ⊢ <;> exact same
  · exact congrArg text

/-- The texts of variables have no blanks. -/
theorem isBlank_of_mem_text (v : Variable) : ∀ c ∈ v.text.toList, isBlank c = false := by
  have no_blank : ∀ n, ∀ c ∈ digits n, isBlank c = false := fun n c member =>
    isBlank_of_isDigit (isDigit_of_mem_digits member)
  cases v with
  | one => simp [text, isBlank]
  | pub index =>
      rw [toList_text_pub]
      simpa [isBlank] using no_blank index
  | loc id positive =>
      rw [toList_text_loc]
      simpa [isBlank] using no_blank id

theorem make_pub (index : Nat) : make .pub index = .ok (.pub index) := by
  simp [make]

theorem make_loc {id : Nat} (positive : 0 < id) : make .loc id = .ok (.loc id positive) := by
  simp [make, positive]

/-- The digits that are written are read as the index. -/
theorem parseIndex_digits (whole : Text) (kind : Kind) {n : Nat} (writable : isWritable n = true) :
    parseIndex whole kind (digits n) = make kind n := by
  have short := (length_digits_le_iff n).2 writable
  obtain ⟨c, cs, split⟩ := List.exists_cons_of_ne_nil (digits_ne_nil n)
  have read := plainDigits?_digits n
  have value := value_digits n
  rw [split] at short read value ⊢
  unfold parseIndex
  rw [read]
  simp only [List.length_map, short, if_true, value]

/-- The text of a variable is read as that variable. -/
theorem parse_text (v : Variable) (writable : v.Writable) : parse v.text = .ok v := by
  have chars : (ofString v.text).scalars?.map strip = some v.text.toList := by
    rw [scalars?_ofString, Option.map_some, strip, stripBy_eq_self v.isBlank_of_mem_text]
  unfold parse
  rw [chars]
  cases v with
  | one => rfl
  | pub index =>
      rw [toList_text_pub]
      exact (parseIndex_digits _ .pub writable).trans (make_pub index)
  | loc id positive =>
      rw [toList_text_loc]
      exact (parseIndex_digits _ .loc writable).trans (make_loc positive)

/-! ### What is read can be written -/

theorem writable_of_make {kind : Kind} {n : Nat} {v : Variable} (made : make kind n = .ok v)
    (writable : isWritable n = true) : v.Writable := by
  cases kind with
  | one =>
      simp only [make] at made
      split at made
      · cases made
        exact writable_one
      · cases made
  | pub =>
      simp only [make] at made
      split at made
      · cases made
        exact writable
      · cases made
  | loc =>
      simp only [make] at made
      split at made
      · cases made
        exact writable
      · cases made

/-- The index of a variable that was read has few enough digits, since it was read from them. -/
theorem writable_of_parseIndex {whole : Text} {kind : Kind} {cs : List Char} {v : Variable}
    (read : parseIndex whole kind cs = .ok v) : v.Writable := by
  unfold parseIndex at read
  split at read
  next ds digits =>
    split at read
    next short =>
      exact writable_of_make read (isWritable_value (forall_lt_of_plainDigits? digits) short)
    next => cases read
  next => cases read

/-- The index of a variable that was read has few enough digits to be written. -/
theorem writable_of_parse {t : Text} {v : Variable} (read : parse t = .ok v) : v.Writable := by
  unfold parse at read
  split at read
  next =>
    cases read
    exact writable_one
  next => exact writable_of_parseIndex read
  next => exact writable_of_parseIndex read
  next => cases read

/-! ### What is not read -/

theorem kind_of_make {kind : Kind} {index : Int} {fault : Fault} (refused : make kind index = .error fault) :
    fault.kind = .value := by
  cases kind <;> simp only [make] at refused <;> split at refused <;> cases refused <;> rfl

theorem kind_of_parseIndex {whole : Text} {kind : Kind} {cs : List Char} {fault : Fault}
    (refused : parseIndex whole kind cs = .error fault) : fault.kind = .value := by
  unfold parseIndex at refused
  split at refused
  next =>
    split at refused
    next => exact kind_of_make refused
    next =>
      cases refused
      rfl
  next =>
    cases refused
    rfl

/-- A text that names no variable is a wrong value. -/
theorem kind_of_parse {t : Text} {fault : Fault} (refused : parse t = .error fault) :
    fault.kind = .value := by
  unfold parse at refused
  split at refused
  next => cases refused
  next => exact kind_of_parseIndex refused
  next => exact kind_of_parseIndex refused
  next =>
    cases refused
    rfl

end Circuit.Variable

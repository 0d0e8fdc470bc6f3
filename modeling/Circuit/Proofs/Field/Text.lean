import Circuit.Codec.Encode
import Circuit.Field.Text
import Circuit.Proofs.Decimal.Digits

/-!
# Elements as decimal text

The text of an element is read into any field that has room for its value, as the element with the
same value; a smaller field refuses it.

* `Field.read_encode` says what becomes of a written element.
* `Field.field_of_read`: what is read is an element of the field that was asked for.
* `Field.Spells` says which data stand for an element, `Field.exists_read_iff` that these are read, and
  `Field.kind_of_parse` what is wrong with a text that is not.
-/

namespace Circuit

/-- The value of an element has few enough digits to be written. -/
def Element.Writable (x : Element) : Prop := Decimal.isWritable x.value = true

theorem Json.integer_text {x : Element} (writable : x.Writable) :
    Json.integer (.str x.text) = .ok x.value := by
  have chars : (Text.ofString x.text).scalars? = some (Decimal.digits x.value) := by
    rw [Text.scalars?_ofString, Element.text, Decimal.ofNat, String.toList_ofList]
  simp only [Json.integer, chars, Option.bind_some, Decimal.readInt?_digits writable]

theorem Json.kind_of_integer {t : Text} {fault : Fault} (refused : Json.integer (.str t) = .error fault) :
    fault.kind = .value := by
  simp only [Json.integer] at refused
  split at refused <;> cases refused
  rfl

namespace Element

/-- An element that is small enough is not changed by another field. -/
theorem value_recast {F : Field} {x : Element} (fits : x.value < F.modulus) :
    (x.recast F).value = x.value := by
  have residue := F.element_value x.value
  rw [Int.emod_eq_of_lt (Int.natCast_nonneg _) (Int.ofNat_lt.2 fits)] at residue
  exact Int.ofNat.inj residue

end Element

namespace Field

/-- The elements of the usual field can be written. -/
theorem short_scalars : scalars.modulus ≤ 10 ^ Decimal.digitLimit :=
  Nat.le_trans (by decide : scalars.modulus ≤ 10 ^ 77) (Nat.pow_le_pow_right (by decide) (by decide))

/-- What becomes of the text of an element in a field. -/
theorem read_encode (F : Field) {x : Element} (writable : x.Writable) :
    F.read x.encode =
      if x.value < F.modulus then .ok (x.recast F) else .error (.outsideField x.text) := by
  unfold read Element.encode
  rw [Json.integer_text writable]
  simp only [Int.natCast_nonneg, true_and, Int.ofNat_lt]
  rfl

theorem field_of_read {F : Field} {data : Json} {x : Element} (done : F.read data = .ok x) :
    x.field = F := by
  unfold read at done
  split at done
  · cases done
  · split at done
    · cases done
      rfl
    · cases done

/-- Data stand for an integer that is reduced already. -/
def Spells (F : Field) (data : Json) (x : Int) : Prop :=
  data.integer = .ok x ∧ 0 ≤ x ∧ x < F.modulus

theorem toInt_element {F : Field} {x : Int} (low : 0 ≤ x) (high : x < F.modulus) : (F.element x).toInt = x :=
  (F.element_value x).trans (Int.emod_eq_of_lt low high)

/-- The data that are read as an element, by a description that does not mention the reader. -/
theorem exists_read_iff {F : Field} {data : Json} {x : Int} :
    (∃ e, F.read data = .ok e ∧ e.toInt = x) ↔ F.Spells data x := by
  unfold read Spells
  cases data.integer with
  | error fault => simp
  | ok n =>
      by_cases inside : 0 ≤ n ∧ n < F.modulus
      · simp only [if_pos inside, Except.ok.injEq, exists_eq_left', toInt_element inside.1 inside.2]
        constructor
        · rintro rfl
          exact ⟨rfl, inside⟩
        · exact And.left
      · simp only [if_neg inside, Except.ok.injEq]
        constructor
        · nofun
        · rintro ⟨rfl, reduced⟩
          exact absurd reduced inside

/-- A text that stands for no element is a wrong value. -/
theorem kind_of_parse {F : Field} {t : Text} {fault : Fault} (refused : F.parse t = .error fault) :
    fault.kind = .value := by
  unfold parse read at refused
  split at refused
  next other unread =>
    cases refused
    exact Json.kind_of_integer unread
  next =>
    split at refused <;> cases refused
    rfl

end Field

end Circuit

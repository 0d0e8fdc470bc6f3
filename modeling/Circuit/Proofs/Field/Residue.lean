import Mathlib.Data.Int.ModEq
import Circuit.Field.Basic

/-!
# Elements as residues

An element is the residue of an integer, so that elements are equal exactly when their integers agree
modulo the modulus, and operations on elements are those on the integers.

* `Field.element_eq_iff` is the equality.
* `Field.add_element`, `Field.sub_element`, `Field.neg_element` and `Field.mul_element` are the operations;
  `Field.add_integer` and `Field.mul_integer` are those with a plain integer.
* `Element.Modular`: what passes for an element of a field calculates with the modulus of that field.
  `Element.modular_iff` says of which elements this is true, and `Element.coerce_mul_modEq` what it is good for.
-/

namespace Circuit.Field

variable (F : Field)

/-- An element keeps the residue of the integer that it was made from. -/
theorem value_modEq (n : Int) : ((F.element n).value : Int) ≡ n [ZMOD F.modulus] := by
  unfold Int.ModEq
  rw [element_value]
  exact Int.emod_emod_of_dvd n (dvd_refl _)

/-- Integers make one element exactly if they have one residue. -/
theorem element_eq_iff (m n : Int) : F.element m = F.element n ↔ m ≡ n [ZMOD F.modulus] := by
  constructor
  · intro h
    have same : ((F.element m).value : Int) = (F.element n).value := by rw [h]
    rwa [element_value, element_value] at same
  · intro h
    have same : (m % F.modulus).toNat = (n % F.modulus).toNat := congrArg Int.toNat h
    unfold element
    simp only [same]

/-- Equal values make equal elements of one field. -/
theorem value_eq_iff (m n : Int) :
    (F.element m).value = (F.element n).value ↔ m ≡ n [ZMOD F.modulus] := by
  rw [← element_eq_iff]
  constructor
  · intro h
    rw [← element_ofValue (F.element m), ← element_ofValue (F.element n), h]
    rfl
  · intro h
    rw [h]

/-- Elements of one field are told apart by their integers, also when these are known as residues only. -/
theorem ext_modEq {x y : Element} (field : x.field = y.field)
    (value : x.toInt ≡ y.toInt [ZMOD y.field.modulus]) : x = y := by
  rw [← element_ofValue x, ← element_ofValue y, field]
  exact (y.field.element_eq_iff _ _).2 value

@[simp] theorem value_zero : (F.element 0).value = 0 := by
  simp [element]

theorem add_element (m n : Int) :
    (F.element m).add (F.element n).toInt = F.element (m + n) := by
  apply (F.element_eq_iff _ _).2
  exact Int.ModEq.add (F.value_modEq m) (F.value_modEq n)

theorem sub_element (m n : Int) :
    (F.element m).sub (F.element n).toInt = F.element (m - n) := by
  apply (F.element_eq_iff _ _).2
  exact Int.ModEq.sub (F.value_modEq m) (F.value_modEq n)

theorem neg_element (m : Int) : (F.element m).neg = F.element (-m) := by
  apply (F.element_eq_iff _ _).2
  exact Int.ModEq.neg (F.value_modEq m)

theorem add_integer (m n : Int) : (F.element m).add n = F.element (m + n) := by
  apply (F.element_eq_iff _ _).2
  exact Int.ModEq.add_right n (F.value_modEq m)

theorem mul_integer (m n : Int) : (F.element m).mul n = F.element (m * n) := by
  apply (F.element_eq_iff _ _).2
  exact Int.ModEq.mul_right n (F.value_modEq m)

theorem mul_element (m n : Int) :
    (F.element m).mul (F.element n).toInt = F.element (m * n) := by
  apply (F.element_eq_iff _ _).2
  exact Int.ModEq.mul (F.value_modEq m) (F.value_modEq n)

end Circuit.Field

namespace Circuit.Element

variable {F : Field} {x : Element}

/-- What passes for an element of `F` multiplies modulo the modulus of `F`. -/
def Modular (F : Field) (x : Element) : Prop :=
  x.isInstance F = true → ∀ n : Int, (x.mul n).toInt ≡ x.toInt * n [ZMOD F.modulus]

/-- A product is reduced by the modulus of its left side. -/
theorem mul_modEq (x : Element) (n : Int) : (x.mul n).toInt ≡ x.toInt * n [ZMOD x.field.modulus] :=
  x.field.value_modEq _

/-- The first multiple of an element that is reduced by its own modulus shows whether the other modulus divides
that one. -/
theorem modular_iff : x.Modular F ↔ (x.isInstance F = true → F.modulus ∣ x.field.modulus ∨ x.value = 0) := by
  refine forall_congr' fun _ => ⟨fun modular => ?_, ?_⟩
  · by_cases zero : x.value = 0
    · exact .inr zero
    have positive : 0 < x.value := Nat.pos_of_ne_zero zero
    let n := x.field.modulus / x.value + 1
    let excess := x.value - x.field.modulus % x.value
    have small : excess < x.field.modulus := Nat.lt_of_le_of_lt (Nat.sub_le _ _) x.reduced
    have multiple : x.value * n = x.field.modulus + excess := by
      have parts := Nat.div_add_mod x.field.modulus x.value
      have below := Nat.mod_lt x.field.modulus positive
      simp only [n, excess, Nat.mul_add, Nat.mul_one]
      omega
    have total : x.toInt * n = x.field.modulus + excess := by
      rw [toInt]
      exact_mod_cast multiple
    have reduced : (x.mul n).toInt = excess := by
      have product : (x.mul n).toInt = x.toInt * n % x.field.modulus := x.field.element_value _
      rw [product, total, Int.add_emod_left, Int.emod_eq_of_lt (Int.natCast_nonneg _) (Int.ofNat_lt.2 small)]
    have same := modular n
    rw [reduced, total] at same
    have vanishes : (0 : Int) + excess ≡ x.field.modulus + excess [ZMOD F.modulus] := by rwa [Int.zero_add]
    have divides := Int.modEq_zero_iff_dvd.1 (Int.ModEq.add_right_cancel' _ vanishes).symm
    exact .inl (Int.natCast_dvd_natCast.1 divides)
  · rintro (divides | zero) n
    · exact (x.mul_modEq n).of_dvd (Int.natCast_dvd_natCast.2 divides)
    · have nothing : x.toInt = 0 := congrArg Int.ofNat zero
      have product : (x.mul n).toInt = x.toInt * n % x.field.modulus := x.field.element_value _
      rw [product, nothing, Int.zero_mul, Int.zero_emod]

instance : Decidable (x.Modular F) := decidable_of_iff _ modular_iff.symm

/-- A scalar passes for an element of the base field, and does not calculate like one. -/
example : (Field.scalars.element 2).Modular Field.scalars ∧ ¬ (Field.scalars.element 2).Modular Field.base := by
  decide

theorem modular_of_field (own : x.field = F) : x.Modular F :=
  modular_iff.2 fun _ => .inl (own ▸ Nat.dvd_refl _)

/-- The integer is kept or reduced. -/
theorem coerce_modEq (F : Field) (x : Element) : (x.coerce F).toInt ≡ x.toInt [ZMOD F.modulus] := by
  unfold coerce
  split
  · exact Int.ModEq.refl _
  · exact F.value_modEq _

/-- The product in a field, where the element is taken to the field first. -/
theorem coerce_mul_modEq (modular : x.Modular F) (n : Int) :
    ((x.coerce F).mul n).toInt ≡ x.toInt * n [ZMOD F.modulus] := by
  unfold coerce
  split
  · rename_i passes
    exact modular passes n
  · rw [recast, F.mul_integer]
    exact F.value_modEq _

end Circuit.Element

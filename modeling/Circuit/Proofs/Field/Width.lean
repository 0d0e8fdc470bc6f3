import Mathlib.Data.Nat.Digits.Defs
import Circuit.Field.Bytes

/-!
# Widths of bytes

Which integers a row of bytes of a given width holds.

* `Bytes.littleEndian_ofLittleEndian`: a row of bytes is the one of the number that it denotes, which is that of
  the bytes as digits: `Bytes.ofLittleEndian_eq_ofDigits`.
* `Bytes.word_eq_ok`, `Bytes.fit_eq_ok` and `Bytes.encode_eq_ok_iff` say exactly when a width takes a number.
* `Field.modulus_lt_capacity_iff`: the width of a field is the least one that holds its modulus, and so it holds
  every element.
* `Field.ofBytes_encode` and `Field.encode_ofBytes_iff`: elements are read back from their bytes, and bytes are
  written back if they denote a reduced value. `Field.bytes_exact` puts all this together.
-/

namespace Circuit

namespace Bytes

/-- Bytes denote a number as its digits in base 256, the lowest digit first. -/
theorem ofLittleEndian_eq_ofDigits (bytes : Bytes) :
    ofLittleEndian bytes = Nat.ofDigits 256 (bytes.map UInt8.toNat) := by
  induction bytes with
  | nil => rfl
  | cons b rest ih => rw [ofLittleEndian, List.map_cons, Nat.ofDigits_cons, ih]

/-- A row of bytes denotes less than its width can hold. -/
theorem ofLittleEndian_lt_capacity (bytes : Bytes) :
    ofLittleEndian bytes < capacity bytes.length := by
  induction bytes with
  | nil => exact Nat.one_pos
  | cons b rest ih =>
    have low := b.toNat_lt
    rw [List.length_cons, capacity_succ]
    simp only [ofLittleEndian]
    omega

/-- Writing the number that bytes denote gives the bytes back. -/
theorem littleEndian_ofLittleEndian (bytes : Bytes) :
    littleEndian bytes.length (ofLittleEndian bytes) = bytes := by
  induction bytes with
  | nil => rfl
  | cons b rest ih =>
    have low := b.toNat_lt
    have first : UInt8.ofNat (b.toNat + 256 * ofLittleEndian rest) = b := by
      apply UInt8.toNat.inj
      rw [UInt8.toNat_ofNat']
      omega
    have later : (b.toNat + 256 * ofLittleEndian rest) / 256 = ofLittleEndian rest := by omega
    rw [List.length_cons, ofLittleEndian, littleEndian, first, later, ih]

/-- A fixed place takes exactly the integers below its capacity. -/
theorem word_eq_ok (width n : Nat) (bytes : Bytes) :
    word width n = .ok bytes ↔ n < capacity width ∧ bytes = littleEndian width n := by
  unfold word
  by_cases h : n < capacity width
  · simp [h, eq_comm]
  · simp [h]

/-- A fixed place refuses an integer in one way only. -/
theorem word_eq_error (width n : Nat) (fault : Fault) (h : word width n = .error fault) :
    fault = .wordOverflow := by
  unfold word at h
  split at h
  · cases h
  · exact (Except.error.inj h).symm

/-- There is no other reason to refuse a number than its size. -/
theorem fit_eq_ok (width n : Nat) (bytes : Bytes) :
    fit width n = .ok bytes ↔ n < capacity width ∧ bytes = littleEndian width n := by
  unfold fit
  by_cases h : n < capacity width
  · simp [h, eq_comm]
  · simp [h]

theorem fit_eq_error (width n : Nat) (fault : Fault) (h : fit width n = .error fault) :
    capacity width ≤ n ∧ fault = .tooWide n (Decimal.ofNat width) := by
  unfold fit at h
  split at h
  · cases h
  · rename_i wide
    exact ⟨Nat.le_of_not_lt wide, (Except.error.inj h).symm⟩

/-- A width that is a size refuses a natural number for want of room and nothing else. -/
theorem encode_natCast (n : Nat) {width : Nat} (size : width < sizeBound) : encode n width = fit width n := by
  have natural : ¬ (n : Int) < 0 := by omega
  have width_natural : ¬ (width : Int) < 0 := by omega
  have width_size : ¬ ((sizeBound : Int) ≤ width ∨ (width : Int) < -0x8000000000000000) := by omega
  unfold encode
  rw [if_neg natural, if_neg width_size, if_neg width_natural, Int.toNat_natCast, Int.toNat_natCast]

/-- No number is written in a width beyond all sizes. -/
theorem encode_beyond {n : Int} (natural : 0 ≤ n) {width : Nat} (beyond : sizeBound ≤ width) :
    encode n width = .error (.tooWide n (Decimal.ofNat width)) := by
  unfold encode
  rw [if_neg (Int.not_lt.2 natural), if_pos (.inl (Int.ofNat_le.2 beyond))]
  rfl

theorem natCast_lt_iff (n width : Nat) : (n : Int) < 256 ^ width ↔ n < capacity width := by
  rw [capacity, Nat.pow_eq]
  exact_mod_cast Iff.rfl

/-- An integer is written exactly if it is natural and has room in the width, and the width is a size. -/
theorem encode_eq_ok_iff (n : Int) (width : Nat) (bytes : Bytes) :
    encode n width = .ok bytes ↔
      0 ≤ n ∧ n < 256 ^ width ∧ width < sizeBound ∧ bytes = littleEndian width n.toNat := by
  by_cases negative : n < 0
  · simp [encode, negative, Int.not_le.2 negative]
  · have natural := Int.not_lt.1 negative
    by_cases size : width < sizeBound
    · obtain ⟨k, rfl⟩ := Int.eq_ofNat_of_zero_le natural
      rw [encode_natCast k size, fit_eq_ok, natCast_lt_iff, Int.toNat_natCast]
      simp [size]
    · rw [encode_beyond natural (Nat.le_of_not_lt size)]
      simp [size]

/-- The first half of `encode_eq_ok_iff`, without the bytes. -/
theorem exists_encode_iff (n : Int) (width : Nat) :
    (∃ bytes, encode n width = .ok bytes) ↔ 0 ≤ n ∧ n < 256 ^ width ∧ width < sizeBound := by
  simp only [encode_eq_ok_iff, exists_and_left, exists_eq, and_true]

/-- What is written has the width that was asked for, and denotes the integer. -/
theorem length_and_value_of_encode {n : Int} {width : Nat} {bytes : Bytes}
    (done : encode n width = .ok bytes) : bytes.length = width ∧ (ofLittleEndian bytes : Int) = n := by
  obtain ⟨low, high, -, rfl⟩ := (encode_eq_ok_iff n width bytes).1 done
  obtain ⟨k, rfl⟩ := Int.eq_ofNat_of_zero_le low
  rw [Int.toNat_natCast, ofLittleEndian_littleEndian width k ((natCast_lt_iff k width).1 high)]
  exact ⟨length_littleEndian width k, rfl⟩

end Bytes

namespace Field

/-- The width of a field is the least one with a place for the modulus. -/
theorem modulus_lt_capacity_iff (F : Field) (width : Nat) :
    F.modulus < Bytes.capacity width ↔ F.byteWidth ≤ width := by
  have bits : Bytes.capacity width = 2 ^ (8 * width) := (Nat.pow_mul 2 8 width).symm
  rw [bits, ← Nat.log2_lt (Nat.ne_of_gt F.positive)]
  unfold byteWidth
  omega

/-- The modulus itself has a place of the field's width. -/
theorem modulus_lt_capacity (F : Field) : F.modulus < Bytes.capacity F.byteWidth :=
  (F.modulus_lt_capacity_iff F.byteWidth).2 (Nat.le_refl _)

theorem value_lt_capacity {F : Field} {x : Element} (own : x.field = F) :
    x.value < Bytes.capacity F.byteWidth := by
  subst own
  exact Nat.lt_trans x.reduced x.field.modulus_lt_capacity

/-- An element is read back from its bytes, whatever their width. -/
theorem ofBytes_encode {x : Element} {width : Nat} {bytes : Bytes}
    (done : Bytes.encode x.toInt width = .ok bytes) : x.field.ofBytes bytes = x := by
  obtain ⟨-, value⟩ := Bytes.length_and_value_of_encode done
  rw [ofBytes, value]
  exact element_ofValue x

/-- Bytes are written back exactly if they denote a value that is reduced already. -/
theorem encode_ofBytes_iff (F : Field) {bytes : Bytes} (size : bytes.length < Bytes.sizeBound) :
    Bytes.encode (F.ofBytes bytes).toInt bytes.length = .ok bytes ↔
      Bytes.ofLittleEndian bytes < F.modulus := by
  have residue : (F.ofBytes bytes).toInt = (Bytes.ofLittleEndian bytes : Int) % F.modulus :=
    F.element_value _
  constructor
  · intro done
    obtain ⟨-, value⟩ := Bytes.length_and_value_of_encode done
    have reduced := (F.ofBytes bytes).reduced
    exact Int.ofNat_lt.1 (value ▸ Int.ofNat_lt.2 reduced)
  · intro reduced
    rw [residue, Int.emod_eq_of_lt (Int.natCast_nonneg _) (Int.ofNat_lt.2 reduced),
      Bytes.encode_natCast _ size, Bytes.fit_eq_ok]
    exact ⟨Bytes.ofLittleEndian_lt_capacity bytes, (Bytes.littleEndian_ofLittleEndian bytes).symm⟩

/-- The width of a field is the least one that holds the modulus, so that the modulus and all elements are
written in it, as far as rows of bytes can have this size. An integer is written in a width exactly if it is
natural and below the power of 256 and the width is a size, and then in as many bytes as were asked for, which
denote it; it is no negative number but the width that is refused beyond all sizes. An element is read back from
its bytes in any width that holds it; and bytes that are read as an element are written back exactly if they
denote a value below the modulus. -/
theorem bytes_exact (F : Field) :
    (∀ width : Nat, F.modulus < 256 ^ width ↔ F.byteWidth ≤ width) ∧
    (∀ width : Nat, width < Bytes.sizeBound →
      ((∃ bytes, Bytes.encode F.modulus width = .ok bytes) ↔ F.byteWidth ≤ width)) ∧
    (F.byteWidth < Bytes.sizeBound →
      ∀ x : Element, x.field = F → ∃ bytes, Bytes.encode x.toInt F.byteWidth = .ok bytes) ∧
    (∀ (n : Int) (width : Nat), (∃ bytes, Bytes.encode n width = .ok bytes) ↔
      0 ≤ n ∧ n < 256 ^ width ∧ width < Bytes.sizeBound) ∧
    (∀ (n : Int) (width : Nat), 0 ≤ n → Bytes.sizeBound ≤ width →
      Bytes.encode n width = .error (.tooWide n (Decimal.ofNat width))) ∧
    (∀ (n : Int) (width : Nat) (bytes : Bytes), Bytes.encode n width = .ok bytes →
      bytes.length = width ∧ (Nat.ofDigits 256 (bytes.map UInt8.toNat) : Nat) = n) ∧
    (∀ x : Element, x.field = F → ∀ (width : Nat) (bytes : Bytes),
      Bytes.encode x.toInt width = .ok bytes → F.ofBytes bytes = x) ∧
    ∀ bytes : Bytes, bytes.length < Bytes.sizeBound →
      (Bytes.encode (F.ofBytes bytes).toInt bytes.length = .ok bytes ↔
        Nat.ofDigits 256 (bytes.map UInt8.toNat) < F.modulus) := by
  refine ⟨F.modulus_lt_capacity_iff, ?_, ?_, Bytes.exists_encode_iff, ?_, ?_, ?_, ?_⟩
  · intro width size
    rw [Bytes.exists_encode_iff, Bytes.natCast_lt_iff, F.modulus_lt_capacity_iff]
    simp [size]
  · intro size x own
    exact ⟨_, (Bytes.encode_natCast x.value size).trans
      ((Bytes.fit_eq_ok F.byteWidth x.value _).2 ⟨value_lt_capacity own, rfl⟩)⟩
  · intro n width natural beyond
    exact Bytes.encode_beyond natural beyond
  · intro n width bytes done
    rw [← Bytes.ofLittleEndian_eq_ofDigits]
    exact Bytes.length_and_value_of_encode done
  · rintro x rfl width bytes done
    exact ofBytes_encode done
  · intro bytes size
    rw [← Bytes.ofLittleEndian_eq_ofDigits]
    exact F.encode_ofBytes_iff size

/-- The integers modulo 256. The modulus has no place in one byte, though every element has. -/
def byteRing : Field := residues 256 (by decide)

/-- An element modulo 256 in two bytes, and in three; one byte is not enough for the modulus, and there are too
many bytes for anything. -/
theorem bytes_exact_byteRing :
    ((byteRing.element 255).field = byteRing ∧ byteRing.byteWidth < Bytes.sizeBound ∧
      ∃ bytes, Bytes.encode (byteRing.element 255).toInt byteRing.byteWidth = .ok bytes) ∧
    (Bytes.encode 255 (3 : Nat) = .ok [255, 0, 0] ∧ byteRing.ofBytes [255, 0, 0] = byteRing.element 255) ∧
    (1 < Bytes.sizeBound ∧ ¬ ∃ bytes, Bytes.encode byteRing.modulus (1 : Nat) = .ok bytes) ∧
    (0 ≤ (255 : Int) ∧ Bytes.sizeBound ≤ Bytes.sizeBound ∧
      Bytes.encode 255 Bytes.sizeBound = .error (.tooWide 255 (Decimal.ofNat Bytes.sizeBound))) ∧
    ([255, 0, 0] : Bytes).length < Bytes.sizeBound ∧
      Bytes.encode (byteRing.ofBytes [255, 0, 0]).toInt 3 = .ok [255, 0, 0] := by
  obtain ⟨-, modulus_written, elements_written, -, beyond, -, read_back, written_back⟩ := bytes_exact byteRing
  have three : Bytes.encode 255 (3 : Nat) = .ok [255, 0, 0] := rfl
  have one_narrow : ¬ ∃ bytes, Bytes.encode byteRing.modulus (1 : Nat) = .ok bytes := by
    rw [modulus_written 1 (by decide)]
    decide
  exact ⟨⟨rfl, by decide, elements_written (by decide) _ rfl⟩,
    ⟨three, read_back (byteRing.element 255) rfl 3 _ three⟩, ⟨by decide, one_narrow⟩,
    ⟨by decide, Nat.le_refl _, beyond 255 _ (by decide) (Nat.le_refl _)⟩,
    by decide, (written_back [255, 0, 0] (by decide)).2 (by decide)⟩

/-- Five is below every power of 256 but the first, and yet it is not written in 2 ^ 63 bytes. -/
theorem bytes_inexact_beyond :
    (0 ≤ (5 : Int) ∧ (5 : Int) < 256 ^ 9223372036854775808) ∧
      Bytes.encode 5 (9223372036854775808 : Nat) =
        .error (.tooWide 5 (Decimal.ofNat 9223372036854775808)) := by
  have one_byte : (5 : Int) < 256 ^ 1 := by decide
  have more : (256 : Int) ^ 1 ≤ 256 ^ 9223372036854775808 := pow_le_pow_right₀ (by decide) (by decide)
  exact ⟨⟨by decide, Int.lt_of_lt_of_le one_byte more⟩, Bytes.encode_beyond (by decide) (by decide)⟩

end Field

end Circuit

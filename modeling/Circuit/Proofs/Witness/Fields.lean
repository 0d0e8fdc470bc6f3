import Mathlib.Tactic.Choose
import Circuit.Codec.Decode
import Circuit.Proofs.Except
import Circuit.Proofs.Field.Text
import Circuit.Proofs.Variable.Text
import Circuit.Proofs.Witness.Values

/-!
# Witnesses from objects

Each field of an object gives a value to a variable. An object is read exactly when all of its fields do so,
and of the fields for one variable the last one decides.

* `Witness.Gives` says what a field gives, `Witness.LastGiven` what all fields give together.
* `Witness.exists_decode` and `Witness.exists_decode_error` read objects.
-/

namespace Circuit.Witness

variable {F : Field} {fields : List (Text × Json)} {f : Text × Json} {v u : Variable} {x y : Int}

/-- The name of a field spells a variable, and its data stand for a value. -/
def Gives (F : Field) (f : Text × Json) (v : Variable) (x : Int) : Prop :=
  Variable.parse f.1 = .ok v ∧ F.Spells f.2 x

/-- The last field for a variable gives a value. -/
def LastGiven (F : Field) (fields : List (Text × Json)) (v : Variable) (x : Int) : Prop :=
  ∃ before f after, fields = before ++ f :: after ∧ Gives F f v x ∧
    ∀ later ∈ after, Variable.parse later.1 ≠ .ok v

/-- The fields that are read as an assignment, by a description that does not mention the reader. -/
theorem decodeEntry_eq_ok_iff : decodeEntry F f = .ok (v, x) ↔ Gives F f v x := by
  unfold decodeEntry Gives
  rw [← Field.exists_read_iff]
  cases Variable.parse f.1 with
  | error fault => exact ⟨nofun, nofun⟩
  | ok u =>
    cases F.read f.2 with
    | error fault => exact ⟨nofun, nofun⟩
    | ok e =>
      show Except.ok (u, e.toInt) = .ok (v, x) ↔ _
      simp

theorem exists_decodeEntry_iff : (∃ a, decodeEntry F f = .ok a) ↔ ∃ v x, Gives F f v x := by
  simp only [Prod.exists, decodeEntry_eq_ok_iff]

theorem kind_of_decodeEntry {name value : Text} {fault : Fault}
    (refused : decodeEntry F (name, .str value) = .error fault) : fault.kind = .value := by
  unfold decodeEntry at refused
  cases named : Variable.parse name with
  | error fault' =>
    rw [named] at refused
    cases refused
    exact Variable.kind_of_parse named
  | ok v =>
    cases parsed : F.read (.str value) with
    | error fault' =>
      rw [named, parsed] at refused
      cases refused
      exact Field.kind_of_parse parsed
    | ok e =>
      rw [named, parsed] at refused
      cases refused

/-- An object is read when each field gives a value; the last one for a variable decides. -/
theorem exists_decode (each : ∀ f ∈ fields, ∃ v x, Gives F f v x) :
    ∃ w, Witness.decode F (.obj fields) = .ok w ∧ ∀ v x, w.get? v = some x ↔ LastGiven F fields v x := by
  have : Nonempty (Variable × Int) := ⟨.one, 0⟩
  have each : ∀ f ∈ fields, ∃ a, decodeEntry F f = .ok a := fun f member =>
    exists_decodeEntry_iff.2 (each f member)
  choose! given done using each
  refine ⟨ofList (fields.map given), ?_, fun v x => ?_⟩
  · show (do return ofList (← fields.mapM (decodeEntry F))) = _
    rw [Except.mapM_eq_ok_map done]
    rfl
  · have gives : ∀ f ∈ fields, Gives F f (given f).1 (given f).2 := fun f member =>
      decodeEntry_eq_ok_iff.1 (done f member)
    rw [get?_ofList_eq_some_iff]
    constructor
    · rintro ⟨values, others, split, different⟩
      obtain ⟨before, rest, rfl, -, tail⟩ := List.map_eq_append_iff.1 split
      obtain ⟨f, after, rfl, value, rfl⟩ := List.map_eq_cons_iff.1 tail
      refine ⟨before, f, after, rfl, ?_, fun later member named => ?_⟩
      · have gives := gives f (by simp)
        rwa [value] at gives
      · have gives := gives later (by simp [member])
        exact different _ (List.mem_map_of_mem member) (Except.ok.inj (gives.1.symm.trans named))
    · rintro ⟨before, f, after, rfl, gives_last, others⟩
      have value : given f = (v, x) := Except.ok.inj
        ((done f (by simp)).symm.trans (decodeEntry_eq_ok_iff.2 gives_last))
      refine ⟨before.map given, after.map given, by simp [value], List.forall_mem_map.2 fun later member same => ?_⟩
      have gives := gives later (by simp [member])
      exact others later member (same ▸ gives.1)

/-- An object with a field that gives no value is refused. -/
theorem exists_decode_error (some_field : ∃ f ∈ fields, ¬ ∃ v x, Gives F f v x) :
    ∃ f ∈ fields, ∃ fault, decodeEntry F f = .error fault ∧ Witness.decode F (.obj fields) = .error fault := by
  cases read : fields.mapM (decodeEntry F) with
  | ok given =>
    obtain ⟨f, member, gives_none⟩ := some_field
    exact absurd (exists_decodeEntry_iff.1 (Except.exists_of_mapM_eq_ok read f member)) gives_none
  | error fault =>
    obtain ⟨f, member, failed⟩ := Except.exists_of_mapM_eq_error read
    refine ⟨f, member, fault, failed, ?_⟩
    show (do return ofList (← fields.mapM (decodeEntry F))) = _
    rw [read]
    rfl

end Circuit.Witness

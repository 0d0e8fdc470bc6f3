import Mathlib.Data.List.Perm.Subperm
import Circuit.Json.Basic

/-!
# Equality of JSON values

A value is equal to itself, unless it holds an undefined number. A row of fields stands for an object
only if no key occurs twice in it.

* `Json.Proper` says that a value holds no undefined number and that its objects are objects.
* `Json.same_self`: such a value is equal to itself. `Json.same_symm` and `Json.same_trans`: equality of
  such values is an equivalence.
-/

namespace Circuit.Json

mutual

/-- No number of the value is undefined, and no object has a key twice. -/
def Proper : Json → Prop
  | .real x => x ≠ .undefined
  | .arr items => AllProper items
  | .obj fields => (fields.map (·.1)).Nodup ∧ FieldsProper fields
  | _ => True

def AllProper : List Json → Prop
  | [] => True
  | x :: rest => Proper x ∧ AllProper rest

def FieldsProper : List (Text × Json) → Prop
  | [] => True
  | (_, x) :: rest => Proper x ∧ FieldsProper rest

end

theorem allProper_iff {items : List Json} : AllProper items ↔ ∀ x ∈ items, x.Proper := by
  induction items with
  | nil => simp [AllProper]
  | cons x rest ih => rw [AllProper, ih, List.forall_mem_cons]

theorem fieldsProper_iff {fields : List (Text × Json)} : FieldsProper fields ↔ ∀ f ∈ fields, f.2.Proper := by
  induction fields with
  | nil => simp [FieldsProper]
  | cons f rest ih => rw [FieldsProper, ih, List.forall_mem_cons]

/-- Where no key occurs twice, every field is found under its key. -/
theorem field?_of_mem {fields : List (Text × Json)} (distinct : (fields.map (·.1)).Nodup)
    {key : Text} {x : Json} (member : (key, x) ∈ fields) : field? fields key = some x := by
  obtain ⟨before, after, rfl⟩ := List.append_of_mem member
  refine List.lookup_eq_some_iff.2 ⟨before, after, rfl, fun f f_member => ?_⟩
  rw [List.map_append, List.nodup_append] at distinct
  have apart := distinct.2.2 f.1 (List.mem_map_of_mem f_member) key List.mem_cons_self
  exact bne_iff_ne.2 (Ne.symm apart)

theorem sameAtom_self {a : Json} {x : Rat ⊕ Bool} (number : a.number? = some x) :
    sameAtom a a = true := by
  simp [sameAtom, number]

/-- Every number that is not undefined has a value. -/
theorem same_real {x : Binary64} (defined : x ≠ .undefined) : same (.real x) (.real x) = true := by
  unfold same
  cases x with
  | finite negative mantissa exponent => exact sameAtom_self rfl
  | infinite negative => exact sameAtom_self rfl
  | undefined => exact absurd rfl defined

mutual

/-- A proper value is equal to itself. -/
theorem same_self : ∀ a : Json, a.Proper → a.same a = true
  | .null, _ => rfl
  | .bool b, _ => by simp [same, sameAtom, number?]
  | .int n, _ => by simp [same, sameAtom, number?]
  | .real x, proper => same_real (by simpa [Proper] using proper)
  | .str s, _ => by simp [same]
  | .arr items, proper => by
      rw [same]
      exact sameItems_self items (by simpa [Proper] using proper)
  | .obj fields, proper => by
      rw [Proper] at proper
      rw [same, Bool.and_eq_true]
      have found : ∀ f ∈ fields, field? fields f.1 = some f.2 := fun _ => field?_of_mem proper.1
      exact ⟨by simp, sameFields_self fields fields found proper.2⟩

/-- Items are proper, and equal themselves one by one. -/
theorem sameItems_self : ∀ items : List Json, AllProper items → sameItems items items = true
  | [], _ => rfl
  | x :: rest, proper => by
      rw [AllProper] at proper
      rw [sameItems, Bool.and_eq_true]
      exact ⟨same_self x proper.1, sameItems_self rest proper.2⟩

/-- Fields that are found in an object have their equals there. -/
theorem sameFields_self (object : List (Text × Json)) : ∀ fields : List (Text × Json),
    (∀ f ∈ fields, field? object f.1 = some f.2) → FieldsProper fields →
      sameFields fields object = true
  | [], _, _ => rfl
  | (key, x) :: rest, found, proper => by
      rw [FieldsProper] at proper
      have first : field? object key = some x := found (key, x) List.mem_cons_self
      rw [sameFields, first, Bool.and_eq_true]
      exact ⟨same_self x proper.1,
        sameFields_self object rest (fun f member => found f (List.mem_cons_of_mem _ member)) proper.2⟩

end

/-! ### What equal values have in common -/

/-- Truth values and numbers, which are compared by value. -/
def Numeric : Json → Prop
  | .bool _ | .int _ | .real _ => True
  | _ => False

theorem numeric_of_number? {a : Json} {x : Rat ⊕ Bool} (number : a.number? = some x) :
    a.Numeric := by
  cases a <;> trivial

/-- Numbers and truth values are equal when their values are. -/
theorem same_numeric_iff {a : Json} (numeric : a.Numeric) (b : Json) :
    a.same b = true ↔ ∃ x, a.number? = some x ∧ b.number? = some x := by
  have atom : a.same b = a.sameAtom b := by
    cases a with
    | null | str | arr | obj => cases numeric
    | bool | int | real => cases b <;> simp [same]
  rw [atom, sameAtom]
  cases a.number? <;> cases b.number? <;> simp [eq_comm]

theorem same_null_iff (b : Json) : same .null b = true ↔ b = .null := by
  cases b <;> simp [same, sameAtom, number?]

theorem same_str_iff (s : Text) (b : Json) : same (.str s) b = true ↔ b = .str s := by
  cases b <;> simp [same, sameAtom, number?, eq_comm]

theorem same_arr_iff (xs : List Json) (b : Json) :
    same (.arr xs) b = true ↔ ∃ ys, b = .arr ys ∧ sameItems xs ys = true := by
  cases b <;> simp [same, sameAtom, number?]

/-- Objects have as many fields, and each field on the left has its equal on the right. -/
theorem same_obj_iff (xs : List (Text × Json)) (b : Json) :
    same (.obj xs) b = true ↔
      ∃ ys, b = .obj ys ∧ xs.length = ys.length ∧ sameFields xs ys = true := by
  cases b <;> simp [same, sameAtom, number?]

theorem sameFields_iff (xs ys : List (Text × Json)) :
    sameFields xs ys = true ↔ ∀ f ∈ xs, ∃ y, field? ys f.1 = some y ∧ f.2.same y = true := by
  induction xs with
  | nil => simp [sameFields]
  | cons f rest ih =>
    obtain ⟨key, x⟩ := f
    rw [sameFields, Bool.and_eq_true, ih, List.forall_mem_cons]
    cases field? ys key <;> simp

theorem mem_of_field? {fields : List (Text × Json)} {key : Text} {x : Json}
    (found : field? fields key = some x) : (key, x) ∈ fields := by
  obtain ⟨before, after, rfl, -⟩ := List.lookup_eq_some_iff.1 found
  exact List.mem_append_cons_self

/-! ### Both ways round -/

theorem same_symm_numeric {a b : Json} (numeric : a.Numeric) (equal : a.same b = true) :
    b.same a = true := by
  obtain ⟨x, left, right⟩ := (same_numeric_iff numeric b).1 equal
  exact (same_numeric_iff (numeric_of_number? right) a).2 ⟨x, right, left⟩

/-- An object whose fields have all their equals in another one of the same size has the same keys. -/
theorem keys_perm {xs ys : List (Text × Json)} (distinct : (xs.map (·.1)).Nodup)
    (length : xs.length = ys.length) (found : sameFields xs ys = true) :
    (xs.map (·.1)).Perm (ys.map (·.1)) := by
  have subset : xs.map (·.1) ⊆ ys.map (·.1) := by
    intro key member
    obtain ⟨f, f_member, rfl⟩ := List.mem_map.1 member
    obtain ⟨y, there, -⟩ := (sameFields_iff xs ys).1 found f f_member
    exact List.mem_map.2 ⟨_, mem_of_field? there, rfl⟩
  exact (List.subperm_of_subset distinct subset).perm_of_length_le (by simp [length])

/-- Objects are compared in both directions when their values are. -/
theorem sameFields_symm {xs ys : List (Text × Json)} (distinct : (xs.map (·.1)).Nodup)
    (length : xs.length = ys.length) (found : sameFields xs ys = true)
    (values : ∀ f ∈ xs, ∀ y, f.2.same y = true → y.same f.2 = true) : sameFields ys xs = true := by
  have keys := keys_perm distinct length found
  have distinct' : (ys.map (·.1)).Nodup := keys.nodup_iff.1 distinct
  refine (sameFields_iff ys xs).2 fun g g_member => ?_
  -- The key of a field on the right is that of one on the left, whose equal is found on the right.
  obtain ⟨f, f_member, key⟩ := List.mem_map.1 (keys.mem_iff.2 (List.mem_map_of_mem g_member))
  obtain ⟨y, there, equal⟩ := (sameFields_iff xs ys).1 found f f_member
  rw [key, field?_of_mem distinct' g_member] at there
  cases there
  exact ⟨f.2, key ▸ field?_of_mem distinct f_member, values f f_member g.2 equal⟩

mutual

/-- Equality is symmetric for proper values. -/
theorem same_symm : ∀ a b : Json, a.Proper → a.same b = true → b.same a = true
  | .null, b, _, equal => by
      rw [(same_null_iff b).1 equal]
      rfl
  | .bool _, _, _, equal => same_symm_numeric trivial equal
  | .int _, _, _, equal => same_symm_numeric trivial equal
  | .real _, _, _, equal => same_symm_numeric trivial equal
  | .str s, b, _, equal => by
      rw [(same_str_iff s b).1 equal]
      exact (same_str_iff s _).2 rfl
  | .arr xs, b, proper, equal => by
      obtain ⟨ys, rfl, items⟩ := (same_arr_iff xs b).1 equal
      rw [Proper] at proper
      exact (same_arr_iff ys _).2 ⟨xs, rfl, sameItems_symm xs ys proper items⟩
  | .obj xs, b, proper, equal => by
      obtain ⟨ys, rfl, length, fields⟩ := (same_obj_iff xs b).1 equal
      rw [Proper] at proper
      have back := sameFields_symm proper.1 length fields (same_symm_fields xs proper.2)
      exact (same_obj_iff ys _).2 ⟨xs, rfl, length.symm, back⟩

theorem sameItems_symm : ∀ xs ys : List Json, AllProper xs → sameItems xs ys = true →
    sameItems ys xs = true
  | [], [], _, _ => rfl
  | x :: xs, y :: ys, proper, equal => by
      rw [AllProper] at proper
      rw [sameItems, Bool.and_eq_true] at equal ⊢
      exact ⟨same_symm x y proper.1 equal.1, sameItems_symm xs ys proper.2 equal.2⟩

/-- The values of fields, each compared the other way round. -/
theorem same_symm_fields : ∀ fields : List (Text × Json), FieldsProper fields →
    ∀ f ∈ fields, ∀ y, f.2.same y = true → y.same f.2 = true
  | [], _, f, member, _ => absurd member List.not_mem_nil
  | (_, x) :: rest, proper, f, member, y => by
      rw [FieldsProper] at proper
      rcases List.mem_cons.1 member with rfl | later
      · exact same_symm x y proper.1
      · exact same_symm_fields rest proper.2 f later y

end

/-! ### Step by step -/

theorem same_trans_numeric {a b c : Json} (numeric : a.Numeric) (first : a.same b = true)
    (second : b.same c = true) : a.same c = true := by
  obtain ⟨x, left, middle⟩ := (same_numeric_iff numeric b).1 first
  obtain ⟨y, again, right⟩ := (same_numeric_iff (numeric_of_number? middle) c).1 second
  cases middle.symm.trans again
  exact (same_numeric_iff numeric c).2 ⟨x, left, right⟩

mutual

/-- No condition is needed here: an undefined number is equal to nothing, so that the first equality excludes it. -/
theorem same_trans : ∀ a b c : Json, a.same b = true → b.same c = true → a.same c = true
  | .null, b, c, first, second => by
      rw [(same_null_iff b).1 first] at second
      exact second
  | .bool _, _, _, first, second => same_trans_numeric trivial first second
  | .int _, _, _, first, second => same_trans_numeric trivial first second
  | .real _, _, _, first, second => same_trans_numeric trivial first second
  | .str s, b, c, first, second => by
      rw [(same_str_iff s b).1 first] at second
      exact second
  | .arr xs, b, c, first, second => by
      obtain ⟨ys, rfl, left⟩ := (same_arr_iff xs b).1 first
      obtain ⟨zs, rfl, right⟩ := (same_arr_iff ys c).1 second
      exact (same_arr_iff xs _).2 ⟨zs, rfl, sameItems_trans xs ys zs left right⟩
  | .obj xs, b, c, first, second => by
      obtain ⟨ys, rfl, length, left⟩ := (same_obj_iff xs b).1 first
      obtain ⟨zs, rfl, length', right⟩ := (same_obj_iff ys c).1 second
      exact (same_obj_iff xs _).2
        ⟨zs, rfl, length.trans length', sameFields_trans xs ys zs left right⟩

theorem sameItems_trans : ∀ xs ys zs : List Json, sameItems xs ys = true →
    sameItems ys zs = true → sameItems xs zs = true
  | [], [], [], _, _ => rfl
  | x :: xs, y :: ys, z :: zs, first, second => by
      rw [sameItems, Bool.and_eq_true] at first second ⊢
      exact ⟨same_trans x y z first.1 second.1, sameItems_trans xs ys zs first.2 second.2⟩

theorem sameFields_trans : ∀ xs ys zs : List (Text × Json), sameFields xs ys = true →
    sameFields ys zs = true → sameFields xs zs = true
  | [], _, _, _, _ => rfl
  | (key, x) :: rest, ys, zs, first, second => by
      have later := sameFields_trans rest ys zs
      rw [sameFields_iff, List.forall_mem_cons, ← sameFields_iff] at first ⊢
      obtain ⟨⟨y, found, left⟩, others⟩ := first
      obtain ⟨z, there, right⟩ := (sameFields_iff ys zs).1 second _ (mem_of_field? found)
      exact ⟨⟨z, there, same_trans x y z left right⟩, later others second⟩

end

end Circuit.Json

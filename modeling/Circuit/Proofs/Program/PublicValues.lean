import Circuit.Program.Basic
import Circuit.Proofs.Except
import Circuit.Proofs.Variable.Wire

/-!
# What a verifier is shown

A verifier is shown the values of the public parameters, and the values of the results after them. On the wires it
is the other way round: the results come first. Where the public parameters are numbered behind the results, one
order is the other with its two parts exchanged, wherever private parameters stand between.

* `Interface.publicValuesOf_eq_ok_iff` and `Interface.publicValuesOf_eq_error_iff` say what a row of public
  variables is shown as.
* `Interface.getElem?_shown_parameter` and `Interface.getElem?_shown_result` are the places of the two parts.
* `Interface.publicValues_by_wire` tells the values by the wires of the public section.
-/

namespace Circuit

/-- A variable of the public section has no value. -/
def Witness.LacksPublic (w : Witness) (shift : Nat) : Prop :=
  ∃ (v : Variable) (n : Nat), v.wire shift = .ok n ∧ 1 ≤ n ∧ n ≤ shift ∧ w.get? v = none

theorem Witness.lacksPublic_iff (w : Witness) (shift : Nat) :
    w.LacksPublic shift ↔ ∃ k < shift, w.get? (.pub k) = none := by
  constructor
  · rintro ⟨v, n, has_wire, first, last, missing⟩
    cases n with
    | zero => exact absurd first (Nat.not_succ_le_zero 0)
    | succ k =>
      obtain rfl := (Variable.wire_eq_slot_iff last v).1 has_wire
      exact ⟨k, last, missing⟩
  · rintro ⟨k, inside, missing⟩
    exact ⟨.pub k, k + 1, (Variable.wire_eq_slot_iff inside _).2 rfl, Nat.succ_pos k, inside, missing⟩

namespace Interface

/-! ### Rows of public variables -/

variable {w : Witness} {vs : List Variable}

/-- The values are those of the variables, one by one and in order. -/
theorem publicValuesOf_eq_ok_iff {xs : List Int} :
    publicValuesOf w vs = .ok xs ↔ vs.map w.get? = xs.map some := by
  induction vs generalizing xs with
  | nil => cases xs <;> simp [publicValuesOf]
  | cons v rest ih =>
    cases found : w.get? v with
    | none => cases xs <;> simp [publicValuesOf, found]
    | some x =>
      simp only [publicValuesOf, found, Except.map_eq_ok, List.map_cons, ih]
      constructor
      · rintro ⟨ys, later, rfl⟩
        rw [later, List.map_cons]
      · intro same
        obtain ⟨y, ys, rfl, head, tail⟩ := List.map_eq_cons_iff.1 same.symm
        exact ⟨ys, tail.symm, by rw [Option.some.inj head]⟩

/-- The first variable of a row without a value is named by the fault. -/
theorem publicValuesOf_eq_error_iff {fault : Fault} :
    publicValuesOf w vs = .error fault ↔
      ∃ v, vs.find? (fun u => (w.get? u).isNone) = some v ∧ fault = .missingPublic v := by
  induction vs with
  | nil => simp [publicValuesOf]
  | cons v rest ih =>
    cases found : w.get? v with
    | none => simp [publicValuesOf, found, eq_comm]
    | some x =>
      simp only [publicValuesOf, found, List.find?_cons, Option.isNone_some, ← ih]
      cases publicValuesOf w rest <;> simp [Except.map]

/-- A missing value of a public variable is the only reason to fail. -/
theorem exists_missingPublic_iff :
    (∃ v, publicValuesOf w vs = .error (.missingPublic v)) ↔ ∃ v ∈ vs, w.get? v = none := by
  simp only [publicValuesOf_eq_error_iff]
  constructor
  · rintro ⟨v, u, found, -⟩
    have absent := List.find?_some found
    exact ⟨u, List.mem_of_find?_eq_some found, Option.isNone_iff_eq_none.1 absent⟩
  · rintro ⟨u, member, missing⟩
    have some_found : (vs.find? fun u => (w.get? u).isNone).isSome = true :=
      List.find?_isSome.2 ⟨u, member, Option.isNone_iff_eq_none.2 missing⟩
    obtain ⟨v, found⟩ := Option.isSome_iff_exists.1 some_found
    exact ⟨v, v, found, rfl⟩

/-- A row whose variables all have values is shown. -/
theorem exists_publicValuesOf (present : ¬ ∃ v ∈ vs, w.get? v = none) :
    ∃ xs, publicValuesOf w vs = .ok xs := by
  cases outcome : publicValuesOf w vs with
  | ok xs => exact ⟨xs, rfl⟩
  | error fault =>
    obtain ⟨v, -, rfl⟩ := publicValuesOf_eq_error_iff.1 outcome
    exact absurd (exists_missingPublic_iff.1 ⟨v, outcome⟩) present

/-- What is shown at a place is the value of the variable at that place. -/
theorem getElem?_of_publicValuesOf {xs : List Int} (shown : publicValuesOf w vs = .ok xs) {k : Nat}
    {v : Variable} (here : vs[k]? = some v) : w.get? v = xs[k]? := by
  have same := congrArg (fun row => row[k]?) (publicValuesOf_eq_ok_iff.1 shown)
  simp only [List.getElem?_map, here, Option.map_some] at same
  cases value : xs[k]? with
  | none => simp [value] at same
  | some x => simpa [value] using same

/-! ### Public parameters behind the results -/

variable {i : Interface}

/-- The public parameters are numbered in their order, from the first slot behind the results on. -/
def Numbered (i : Interface) : Prop :=
  ∀ (j : Nat) (h : j < i.publicParameters.length), i.publicParameters[j] = .pub (i.returnCount.toNat + j)

theorem length_returns (i : Interface) : i.returns.length = i.returnCount.toNat := by
  simp [returns]

/-- The parameters have the first places, and the slots behind those of the results. -/
theorem getElem?_shown_parameter (numbered : i.Numbered) {j : Nat} (inside : j < i.publicParameters.length) :
    (i.publicParameters ++ i.returns)[j]? = some (.pub (i.returnCount.toNat + j)) := by
  rw [List.getElem?_append_left inside, List.getElem?_eq_getElem inside, numbered j inside]

/-- The results have the places behind the parameters, and the first slots. -/
theorem getElem?_shown_result (i : Interface) {j : Nat} (inside : j < i.returnCount.toNat) :
    (i.publicParameters ++ i.returns)[i.publicParameters.length + j]? = some (.pub j) := by
  rw [List.getElem?_append_right (Nat.le_add_right _ j), Nat.add_sub_cancel_left]
  simp [returns, inside]

/-- The variables that are shown are those of the public section. -/
theorem mem_shown_iff (numbered : i.Numbered) (v : Variable) :
    v ∈ i.publicParameters ++ i.returns ↔ ∃ k < i.publicCount, v = .pub k := by
  unfold publicCount
  constructor
  · intro member
    rcases List.mem_append.1 member with parameter | result
    · obtain ⟨j, inside, rfl⟩ := List.getElem_of_mem parameter
      exact ⟨i.returnCount.toNat + j, by omega, numbered j inside⟩
    · obtain ⟨k, inside, rfl⟩ := List.mem_map.1 result
      exact ⟨k, Nat.lt_add_left _ (List.mem_range.1 inside), rfl⟩
  · rintro ⟨k, inside, rfl⟩
    by_cases result : k < i.returnCount.toNat
    · exact List.mem_of_getElem? (getElem?_shown_result i result)
    · obtain ⟨j, rfl⟩ := Nat.exists_eq_add_of_le (Nat.le_of_not_lt result)
      exact List.mem_of_getElem? (getElem?_shown_parameter numbered (by omega))

/-- The shown variables are those of the public section, each with its wire. -/
theorem exists_missing_iff (numbered : i.Numbered) (w : Witness) :
    (∃ v ∈ i.publicParameters ++ i.returns, w.get? v = none) ↔ w.LacksPublic i.publicCount := by
  rw [w.lacksPublic_iff]
  constructor
  · rintro ⟨v, member, missing⟩
    obtain ⟨k, inside, rfl⟩ := (mem_shown_iff numbered v).1 member
    exact ⟨k, inside, missing⟩
  · rintro ⟨k, inside, missing⟩
    exact ⟨_, (mem_shown_iff numbered _).2 ⟨k, inside, rfl⟩, missing⟩

/-- Where the public parameters are numbered behind the results, a verifier is shown the values on the wires of the
public section, each of them the wire of one variable: first those behind the results, then those of the results.
There is nothing to show exactly if a variable of the section has no value. -/
theorem publicValues_by_wire (i : Interface) (w : Witness) (numbered : i.Numbered) :
    (∀ n, ∃! v : Variable, v.wire i.publicCount = .ok n) ∧
    ((∃ v, i.publicValues w = .error (.missingPublic v)) ↔ w.LacksPublic i.publicCount) ∧
    (¬ w.LacksPublic i.publicCount → ∃ xs, i.publicValues w = .ok xs ∧ xs.length = i.publicCount ∧
      (∀ j < i.publicParameters.length, ∀ v : Variable,
        v.wire i.publicCount = .ok (i.returnCount.toNat + 1 + j) → w.get? v = xs[j]?) ∧
      ∀ j < i.returnCount.toNat, ∀ v : Variable,
        v.wire i.publicCount = .ok (1 + j) → w.get? v = xs[i.publicParameters.length + j]?) := by
  unfold publicValues
  refine ⟨Variable.existsUnique_wire i.publicCount, ?_, fun present => ?_⟩
  · rw [exists_missingPublic_iff, exists_missing_iff numbered]
  · rw [← exists_missing_iff numbered] at present
    obtain ⟨xs, shown⟩ := exists_publicValuesOf present
    refine ⟨xs, shown, ?_, fun j inside v has_wire => ?_, fun j inside v has_wire => ?_⟩
    · have lengths := congrArg List.length (publicValuesOf_eq_ok_iff.1 shown)
      simpa [publicCount, length_returns] using lengths.symm
    · have slot : i.returnCount.toNat + j < i.publicCount := by
        unfold publicCount
        omega
      rw [Nat.add_right_comm] at has_wire
      obtain rfl := (Variable.wire_eq_slot_iff slot v).1 has_wire
      exact getElem?_of_publicValuesOf shown (getElem?_shown_parameter numbered inside)
    · have slot : j < i.publicCount := Nat.lt_add_left _ inside
      rw [Nat.add_comm] at has_wire
      obtain rfl := (Variable.wire_eq_slot_iff slot v).1 has_wire
      exact getElem?_of_publicValuesOf shown (getElem?_shown_result i inside)

/-- Two results, and two public parameters with private ones between them. -/
def interspersed : Interface :=
  ⟨[⟨.loc 1 Nat.one_pos, true⟩, ⟨.pub 2, false⟩, ⟨.loc 2 Nat.two_pos, true⟩, ⟨.pub 3, false⟩], .number 2⟩

theorem numbered_interspersed : interspersed.Numbered := by
  unfold Numbered
  decide

/-- The values 10 to 13 on the wires of the public section. -/
def tenToThirteen : Witness := .ofList [(.pub 0, 10), (.pub 1, 11), (.pub 2, 12), (.pub 3, 13)]

def withoutEleven : Witness := .ofList [(.pub 0, 10), (.pub 2, 12), (.pub 3, 13)]

/-- The verifier is shown 12 and 13 first, and nothing where 11 is missing. -/
theorem publicValues_by_wire_interspersed :
    interspersed.Numbered ∧
      (∃ xs, interspersed.publicValues tenToThirteen = .ok xs ∧
        xs[0]? = some 12 ∧ xs[1]? = some 13 ∧ xs[2]? = some 10 ∧ xs[3]? = some 11) ∧
      ∃ v, interspersed.publicValues withoutEleven = .error (.missingPublic v) := by
  have numbered := numbered_interspersed
  obtain ⟨-, -, values⟩ := publicValues_by_wire interspersed tenToThirteen numbered
  obtain ⟨-, missing, -⟩ := publicValues_by_wire interspersed withoutEleven numbered
  have present : ¬ tenToThirteen.LacksPublic interspersed.publicCount := by
    rw [Witness.lacksPublic_iff]
    decide
  obtain ⟨xs, shown, -, inputs, results⟩ := values present
  refine ⟨numbered, ⟨xs, shown, ?_, ?_, ?_, ?_⟩, missing.2 ⟨.pub 1, 2, rfl, by decide, by decide, rfl⟩⟩
  · exact (inputs 0 (by decide) (.pub 2) rfl).symm
  · exact (inputs 1 (by decide) (.pub 3) rfl).symm
  · exact (results 0 (by decide) (.pub 0) rfl).symm
  · exact (results 1 (by decide) (.pub 1) rfl).symm

end Interface

end Circuit

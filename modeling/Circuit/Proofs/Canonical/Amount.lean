import Mathlib.Algebra.BigOperators.Group.List.Basic
import Mathlib.Data.List.Sort
import Mathlib.Tactic.Ring
import Circuit.Canonical
import Circuit.Proofs.Evaluation

/-!
# The amounts of a canonical form

The amount of a variable in a combination is the sum of its coefficients. Coefficients come and go while
a canonical form is put together, and a variable whose amount is zero for the moment is absent; but what
the terms sum up to, modulo the modulus, is kept by every step.

* `Canonical.sum_ofTerms`: sums over integers for the variables are kept.
* `Canonical.eq_of_amounts`: a canonical form is known by its amounts.
* `LinComb.canonical_normal`: the canonical form has the variables whose amount does not vanish, each
  with the residue of its amount, in ascending order, and is its own canonical form.
-/

namespace Circuit

namespace LinComb

/-- All coefficients are elements of one field. -/
def Over (F : Field) (a : LinComb) : Prop := ∀ t ∈ a.terms, t.coeff.field = F

def amount (a : LinComb) (v : Variable) : Int :=
  ((a.terms.filter fun t => t.var = v).map fun t => t.coeff.toInt).sum

/-- One for a variable, and zero for all others. -/
def unit (v u : Variable) : Int := if u = v then 1 else 0

variable {F : Field} {x : Variable → Int} {t : Term} {ts : List Term}

@[simp] theorem sum_nil : sum x ⟨[]⟩ = 0 := rfl

@[simp] theorem sum_cons : sum x ⟨t :: ts⟩ = t.coeff.toInt * x t.var + sum x ⟨ts⟩ := by
  simp [sum]

theorem amount_cons (v : Variable) :
    amount ⟨t :: ts⟩ v = (if t.var = v then t.coeff.toInt else 0) + amount ⟨ts⟩ v := by
  by_cases here : t.var = v <;> simp [amount, here]

/-- An amount is a sum: over one for the variable and zero for the others. -/
theorem amount_eq_sum (a : LinComb) (v : Variable) : a.amount v = a.sum (unit v) := by
  obtain ⟨ts⟩ := a
  induction ts with
  | nil => rfl
  | cons t rest ih => by_cases here : t.var = v <;> simp [amount_cons, ih, unit, here]

theorem amount_eq_zero (a : LinComb) (v : Variable) (absent : ∀ t ∈ a.terms, t.var ≠ v) :
    a.amount v = 0 := by
  have none_left : (a.terms.filter fun t => t.var = v) = [] := by simpa using absent
  simp [amount, none_left]

/-- The order of the terms plays no part in a sum. -/
theorem amount_perm {a b : LinComb} (moved : a.terms.Perm b.terms) (v : Variable) :
    a.amount v = b.amount v :=
  ((moved.filter _).map _).sum_eq

/-- Elements of the field itself calculate with its modulus, whatever else passes for one. -/
theorem modular_of_over {a : LinComb} (uniform : a.Over F) : a.Modular F :=
  fun t member => Element.modular_of_field (uniform t member)

theorem over_cons : Over F ⟨t :: ts⟩ ↔ t.coeff.field = F ∧ Over F ⟨ts⟩ :=
  List.forall_mem_cons

end LinComb

namespace Canonical

open LinComb

variable {F : Field}

/-! ### One term more -/

theorem over_insertTerm {t : Term} {rows : List Term} (coefficient : t.coeff.field = F)
    (uniform : Over F ⟨rows⟩) : Over F ⟨insertTerm t rows⟩ := by
  induction rows with
  | nil => exact over_cons.2 ⟨coefficient, uniform⟩
  | cons u rest ih =>
    obtain ⟨here, later⟩ := over_cons.1 uniform
    rw [insertTerm]
    split
    · dsimp only
      split
      · exact later
      · exact over_cons.2 ⟨here, later⟩
    · split
      · exact over_cons.2 ⟨coefficient, uniform⟩
      · exact over_cons.2 ⟨here, ih later⟩

/-- A term that is added to a row is added to its sums, whether its variable enters, stays or
leaves. -/
theorem sum_insertTerm (x : Variable → Int) (t : Term) {rows : List Term} (uniform : Over F ⟨rows⟩) :
    sum x ⟨insertTerm t rows⟩ ≡ sum x ⟨t :: rows⟩ [ZMOD F.modulus] := by
  induction rows with
  | nil => exact Int.ModEq.refl _
  | cons u rest ih =>
    obtain ⟨here, later⟩ := over_cons.1 uniform
    have total : ((u.coeff.add t.coeff.toInt).value : Int) ≡ u.coeff.toInt + t.coeff.toInt
        [ZMOD F.modulus] := by
      rw [← here]
      exact u.coeff.field.value_modEq _
    rw [insertTerm]
    split
    · rename_i equal
      have joined : (u.coeff.toInt + t.coeff.toInt) * x u.var + sum x ⟨rest⟩ =
          sum x ⟨t :: u :: rest⟩ := by
        simp only [sum_cons, equal]
        ring
      dsimp only
      split
      · -- The variable leaves, for its coefficients cancel.
        rename_i cancelled
        rw [cancelled] at total
        have gone := (total.mul_right (x u.var)).add_right (sum x ⟨rest⟩)
        rwa [Nat.cast_zero, zero_mul, zero_add, joined] at gone
      · have kept := (total.mul_right (x u.var)).add_right (sum x ⟨rest⟩)
        rwa [joined] at kept
    · split
      · exact Int.ModEq.refl _
      · have moved := (ih later).add_left (u.coeff.toInt * x u.var)
        rw [sum_cons, sum_cons, sum_cons]
        rwa [sum_cons, add_left_comm] at moved

theorem over_insert {c : Canonical} {t : Term} (coefficient : t.coeff.field = F)
    (uniform : c.toLinComb.Over F) : (c.insert t).toLinComb.Over F := by
  unfold insert
  split
  · exact uniform
  · exact over_insertTerm coefficient uniform

/-- The inserted term may meet another one with its variable, or may not be kept: the sum is the same. -/
theorem sum_insert (x : Variable → Int) (t : Term) {c : Canonical} (uniform : c.toLinComb.Over F) :
    (c.insert t).toLinComb.sum x ≡ t.coeff.toInt * x t.var + c.toLinComb.sum x
      [ZMOD F.modulus] := by
  unfold insert
  split
  · rename_i zero
    simp [Element.toInt, zero]
  · exact (sum_insertTerm x t uniform).trans (by rw [sum_cons]; rfl)

/-! ### A row of terms -/

theorem over_foldl {ts : List Term} (terms : Over F ⟨ts⟩) {c : Canonical}
    (uniform : c.toLinComb.Over F) : (ts.foldl insert c).toLinComb.Over F := by
  induction ts generalizing c with
  | nil => exact uniform
  | cons t rest ih => exact ih (over_cons.1 terms).2 (over_insert (over_cons.1 terms).1 uniform)

/-- Induction on the terms still to be inserted; the sum so far is that of the form so far. -/
theorem sum_foldl (x : Variable → Int) {ts : List Term} (terms : Over F ⟨ts⟩) {c : Canonical}
    (uniform : c.toLinComb.Over F) :
    (ts.foldl insert c).toLinComb.sum x ≡ sum x ⟨ts⟩ + c.toLinComb.sum x [ZMOD F.modulus] := by
  -- What is added to is any canonical form: it holds the terms that came before.
  induction ts generalizing c with
  | nil => simp
  | cons t rest ih =>
    obtain ⟨here, later⟩ := over_cons.1 terms
    calc ((t :: rest).foldl insert c).toLinComb.sum x
        ≡ sum x ⟨rest⟩ + (c.insert t).toLinComb.sum x [ZMOD F.modulus] :=
          ih later (over_insert here uniform)
      _ ≡ sum x ⟨rest⟩ + (t.coeff.toInt * x t.var + c.toLinComb.sum x) [ZMOD F.modulus] :=
          (sum_insert x t uniform).add_left _
      _ = sum x ⟨t :: rest⟩ + c.toLinComb.sum x := by rw [sum_cons]; ring

theorem over_ofTerms {ts : List Term} (terms : Over F ⟨ts⟩) : (ofTerms ts).toLinComb.Over F :=
  over_foldl terms fun _ member => nomatch member

/-- The canonical form of a row of terms has the same sums. -/
theorem sum_ofTerms (x : Variable → Int) {ts : List Term} (terms : Over F ⟨ts⟩) :
    (ofTerms ts).toLinComb.sum x ≡ sum x ⟨ts⟩ [ZMOD F.modulus] := by
  have start : empty.toLinComb.Over F := fun _ member => nomatch member
  have summed := sum_foldl x terms start
  have nothing : empty.toLinComb.sum x = 0 := rfl
  rwa [nothing, add_zero] at summed

/-- Amounts are the sums over the integers that are one for a single variable. -/
theorem amount_ofTerms (v : Variable) {ts : List Term} (terms : Over F ⟨ts⟩) :
    (ofTerms ts).toLinComb.amount v ≡ amount ⟨ts⟩ v [ZMOD F.modulus] := by
  rw [amount_eq_sum, amount_eq_sum]
  exact sum_ofTerms _ terms

/-! ### Coefficients and amounts -/

/-- The coefficient of a variable is its amount, for no other term has the variable. -/
theorem amount_eq_coeff (c : Canonical) (v : Variable) :
    c.toLinComb.amount v = ((c.coeff? v).map Element.toInt).getD 0 := by
  obtain ⟨rows, ascending, nonzero⟩ := c
  unfold coeff? toLinComb
  dsimp only
  clear nonzero
  induction rows with
  | nil => rfl
  | cons u rest ih =>
    obtain ⟨above, later⟩ := List.pairwise_cons.1 ascending
    rw [amount_cons, List.find?_cons]
    by_cases here : u.var = v
    · have absent : ∀ t ∈ rest, t.var ≠ v := by
        intro t member equal
        have order := above t member
        rw [here, equal] at order
        omega
      simp [here, amount_eq_zero ⟨rest⟩ v absent]
    · simp [here, ih later]

/-- The terms of a canonical form are exactly what a look-up finds. -/
theorem mem_terms_iff (c : Canonical) (t : Term) : t ∈ c.terms ↔ c.coeff? t.var = some t.coeff := by
  obtain ⟨rows, ascending, nonzero⟩ := c
  unfold coeff?
  dsimp only
  clear nonzero
  induction rows with
  | nil => simp
  | cons u rest ih =>
    obtain ⟨above, later⟩ := List.pairwise_cons.1 ascending
    rw [List.mem_cons, List.find?_cons, ih later]
    by_cases here : u.var = t.var
    · have absent : (rest.find? fun s => s.var = t.var) = none := by
        rw [List.find?_eq_none]
        intro s member equal
        have order := above s member
        rw [here, of_decide_eq_true equal] at order
        omega
      have equal : t = u ↔ u.coeff = t.coeff := by
        cases t
        cases u
        simp_all [eq_comm]
      simp [absent, here, equal]
    · have other : t ≠ u := fun equal => here (congrArg Term.var equal.symm)
      simp [here, other]

/-- What a canonical form has of a variable is the residue of its amount, unless that is zero. -/
theorem coeff?_eq {c : Canonical} (uniform : c.toLinComb.Over F) {v : Variable} {n : Int}
    (amount : c.toLinComb.amount v ≡ n [ZMOD F.modulus]) :
    c.coeff? v = if (F.element n).value = 0 then none else some (F.element n) := by
  rw [amount_eq_coeff] at amount
  cases found : c.coeff? v with
  | none =>
    rw [found] at amount
    have zero : (F.element n).value = (F.element 0).value := (F.value_eq_iff n 0).2 amount.symm
    rw [if_pos (zero.trans F.value_zero)]
  | some x =>
    rw [found] at amount
    have member : (⟨v, x⟩ : Term) ∈ c.terms := (mem_terms_iff c ⟨v, x⟩).2 found
    have field : x.field = F := uniform _ member
    have residue : x = F.element n := by
      subst field
      rw [← Field.element_ofValue x]
      exact (x.field.element_eq_iff _ _).2 amount
    rw [← residue, if_neg (c.nonzero _ member)]

/-- Canonical forms over one field are the same when their amounts agree. -/
theorem eq_of_amounts {c d : Canonical} (c_over : c.toLinComb.Over F) (d_over : d.toLinComb.Over F)
    (agree : ∀ v, c.toLinComb.amount v ≡ d.toLinComb.amount v [ZMOD F.modulus]) : c = d := by
  have members : ∀ t, t ∈ c.terms ↔ t ∈ d.terms := by
    intro t
    rw [mem_terms_iff, mem_terms_iff, coeff?_eq c_over (agree t.var),
      coeff?_eq d_over (Int.ModEq.refl _)]
  have irrefl : Std.Irrefl fun t u : Term => t.var.raw < u.var.raw := ⟨fun _ => by omega⟩
  have antisymm : Std.Antisymm fun t u : Term => t.var.raw < u.var.raw :=
    ⟨fun _ _ less more => by omega⟩
  have terms : c.terms = d.terms := c.ascending.eq_of_mem_iff d.ascending members
  cases c
  cases d
  simpa using terms

end Canonical

namespace LinComb

variable {F : Field} {a : LinComb}

theorem over_canonical (uniform : a.Over F) : a.canonical.toLinComb.Over F :=
  Canonical.over_ofTerms uniform

theorem sum_canonical (x : Variable → Int) (uniform : a.Over F) :
    a.canonical.toLinComb.sum x ≡ a.sum x [ZMOD F.modulus] :=
  Canonical.sum_ofTerms x uniform

theorem amount_canonical (v : Variable) (uniform : a.Over F) :
    a.canonical.toLinComb.amount v ≡ a.amount v [ZMOD F.modulus] :=
  Canonical.amount_ofTerms v uniform

/-- A coefficient of the canonical form is the amount of its variable, and there is none when the amount vanishes. -/
theorem coeff?_canonical (v : Variable) (uniform : a.Over F) : a.canonical.coeff? v =
    if a.amount v ≡ 0 [ZMOD F.modulus] then none else some (F.element (a.amount v)) := by
  have residue : (F.element (a.amount v)).value = 0 ↔ a.amount v ≡ 0 [ZMOD F.modulus] := by
    rw [← F.value_eq_iff, F.value_zero]
  rw [Canonical.coeff?_eq (over_canonical uniform) (amount_canonical v uniform)]
  simp only [residue]

/-- Combinations over one field whose amounts agree have the same canonical form. -/
theorem canonical_eq_of_amounts {b : LinComb} (a_over : a.Over F) (b_over : b.Over F)
    (agree : ∀ v, a.amount v ≡ b.amount v [ZMOD F.modulus]) : a.canonical = b.canonical := by
  apply Canonical.eq_of_amounts (over_canonical a_over) (over_canonical b_over)
  intro v
  calc a.canonical.toLinComb.amount v
      ≡ a.amount v [ZMOD F.modulus] := amount_canonical v a_over
    _ ≡ b.amount v [ZMOD F.modulus] := agree v
    _ ≡ b.canonical.toLinComb.amount v [ZMOD F.modulus] := (amount_canonical v b_over).symm

end LinComb

/-- The canonical form has the variables whose coefficients do not cancel, each with the residue of their
sum. It does not depend on the order of the terms; its own terms stand in the order of the variables,
none is zero, and they are its canonical form again. -/
theorem LinComb.canonical_normal (F : Field) (a : LinComb) (uniform : a.Over F) :
    (∀ v, a.canonical.contains v = true ↔ ¬ a.amount v ≡ 0 [ZMOD F.modulus]) ∧
    (∀ v, ¬ a.amount v ≡ 0 [ZMOD F.modulus] →
      ∃ x, a.canonical.get v = .ok x ∧ x.field = F ∧ (x.value : Int) = a.amount v % F.modulus) ∧
    (∀ b : LinComb, b.terms.Perm a.terms → b.canonical = a.canonical) ∧
    a.canonical.toLinComb.terms.Pairwise (fun t u => t.var.raw < u.var.raw) ∧
    (∀ t ∈ a.canonical.toLinComb.terms, t.coeff.value ≠ 0) ∧
    a.canonical.toLinComb.canonical = a.canonical := by
  have canonical_over := over_canonical uniform
  refine ⟨fun v => ?_, fun v remains => ?_, fun b moved => ?_, a.canonical.ascending,
    a.canonical.nonzero, ?_⟩
  · rw [Canonical.contains, coeff?_canonical v uniform]
    split <;> simp_all
  · refine ⟨F.element (a.amount v), ?_, rfl, F.element_value _⟩
    rw [Canonical.get, coeff?_canonical v uniform, if_neg remains]
  · have b_over : b.Over F := fun t member => uniform t (moved.mem_iff.1 member)
    apply canonical_eq_of_amounts b_over uniform
    intro v
    rw [amount_perm moved v]
  · exact canonical_eq_of_amounts canonical_over uniform fun v => amount_canonical v uniform

/-- `3 * _1 + (-3) * _1 + 2 * ~out_0 + 5 * _1`, in which a variable leaves and comes back. -/
def LinComb.wavering : LinComb :=
  ⟨[⟨.loc 1 Nat.one_pos, Field.scalars.element 3⟩, ⟨.loc 1 Nat.one_pos, Field.scalars.element (-3)⟩,
    ⟨.pub 0, Field.scalars.element 2⟩, ⟨.loc 1 Nat.one_pos, Field.scalars.element 5⟩]⟩

theorem LinComb.canonical_normal_wavering :
    wavering.Over Field.scalars ∧
      (∃ x, wavering.canonical.get (.loc 1 Nat.one_pos) = .ok x ∧ x.value = 5) ∧
      wavering.canonical.contains .one = false ∧
      (LinComb.mk wavering.terms.reverse).canonical = wavering.canonical := by
  have uniform : wavering.Over Field.scalars := by
    unfold Over
    decide
  obtain ⟨present, found, order, -⟩ := canonical_normal Field.scalars wavering uniform
  refine ⟨uniform, ?_, ?_, order _ wavering.terms.reverse_perm⟩
  · obtain ⟨x, got, -, value⟩ := found (.loc 1 Nat.one_pos) (by decide)
    have five : wavering.amount (.loc 1 Nat.one_pos) % Field.scalars.modulus = 5 := by decide
    exact ⟨x, got, by omega⟩
  · have absent := (present .one).not_left.2 (by decide)
    exact Bool.eq_false_iff.2 absent

end Circuit

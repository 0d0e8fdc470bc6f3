import Circuit.LinComb

/-!
# Canonical linear combinations

The canonical form of a linear combination has one term for each variable whose coefficients do not
cancel. Its terms are kept in the order of the variables.

* `Canonical.insert` adds one term; `Canonical.ofTerms` adds a row of terms.
* `Canonical.coeff?` is the coefficient of a variable.
-/

namespace Circuit

/-- A combination with at most one term for each variable, in the order of the variables, and
without coefficients that are zero. -/
structure Canonical where
  terms : List Term
  ascending : terms.Pairwise fun t u => t.var.raw < u.var.raw
  nonzero : ∀ t ∈ terms, t.coeff.value ≠ 0
deriving Repr

namespace Canonical

def empty : Canonical := ⟨[], .nil, fun _ h => nomatch h⟩

/-- Adds a term to terms in the order of their variables. A sum takes the field of the coefficient
that was there before; a sum of zero leaves. -/
def insertTerm (t : Term) : List Term → List Term
  | [] => [t]
  | u :: rest =>
      if t.var = u.var then
        let sum := u.coeff.add t.coeff.toInt
        if sum.value = 0 then rest else ⟨u.var, sum⟩ :: rest
      else if t.var.precedes u.var then t :: u :: rest
      else u :: insertTerm t rest

/-- What is found after an insertion was there before, or has the inserted variable. -/
theorem mem_insertTerm {t u : Term} {rows : List Term} (h : u ∈ insertTerm t rows) :
    u.var = t.var ∨ u ∈ rows := by
  induction rows with
  | nil =>
      rw [List.mem_singleton.1 h]
      exact .inl rfl
  | cons d rest ih =>
      rw [insertTerm] at h
      split at h
      · rename_i equal
        dsimp only at h
        split at h
        · exact .inr (List.mem_cons_of_mem d h)
        · rcases List.mem_cons.1 h with rfl | h
          · exact .inl equal.symm
          · exact .inr (List.mem_cons_of_mem d h)
      · split at h
        · rcases List.mem_cons.1 h with rfl | h
          · exact .inl rfl
          · exact .inr h
        · rcases List.mem_cons.1 h with rfl | h
          · exact .inr List.mem_cons_self
          · exact (ih h).imp id (List.mem_cons_of_mem d)

/-- An insertion keeps the order, also where it adds to a coefficient or takes a term away. -/
theorem ascending_insertTerm (t : Term) {rows : List Term}
    (h : rows.Pairwise fun t u => t.var.raw < u.var.raw) :
    (insertTerm t rows).Pairwise fun t u => t.var.raw < u.var.raw := by
  induction rows with
  | nil => exact List.pairwise_singleton _ _
  | cons d rest ih =>
      obtain ⟨above, later⟩ := List.pairwise_cons.1 h
      rw [insertTerm]
      split
      · dsimp only
        split
        · exact later
        · exact List.pairwise_cons.2 ⟨above, later⟩
      · rename_i different
        split
        · rename_i before
          have before : t.var.raw < d.var.raw := of_decide_eq_true before
          refine List.pairwise_cons.2 ⟨fun u hu => ?_, h⟩
          rcases List.mem_cons.1 hu with rfl | hu
          · exact before
          · exact Int.lt_trans before (above u hu)
        · rename_i after
          have after : ¬ t.var.raw < d.var.raw := fun h => after (decide_eq_true h)
          have unequal : t.var.raw ≠ d.var.raw := fun h => different (Variable.raw_inj.1 h)
          refine List.pairwise_cons.2 ⟨fun u hu => ?_, ih later⟩
          rcases mem_insertTerm hu with same | hu
          · rw [same]
            omega
          · exact above u hu

/-- A sum that is zero is not kept, so that no coefficient ever is. -/
theorem nonzero_insertTerm {t : Term} {rows : List Term} (ht : t.coeff.value ≠ 0)
    (h : ∀ u ∈ rows, u.coeff.value ≠ 0) : ∀ u ∈ insertTerm t rows, u.coeff.value ≠ 0 := by
  induction rows with
  | nil =>
      intro u hu
      rw [List.mem_singleton.1 hu]
      exact ht
  | cons d rest ih =>
      have later : ∀ u ∈ rest, u.coeff.value ≠ 0 := fun u hu => h u (List.mem_cons_of_mem d hu)
      intro u hu
      rw [insertTerm] at hu
      split at hu
      · dsimp only at hu
        split at hu
        · exact later u hu
        · rename_i total
          rcases List.mem_cons.1 hu with rfl | hu
          · exact total
          · exact later u hu
      · split at hu
        · rcases List.mem_cons.1 hu with rfl | hu
          · exact ht
          · exact h u hu
        · rcases List.mem_cons.1 hu with rfl | hu
          · exact h u List.mem_cons_self
          · exact ih later u hu

/-- Adds a term, unless its coefficient is zero. -/
def insert (c : Canonical) (t : Term) : Canonical :=
  if h : t.coeff.value = 0 then c
  else ⟨insertTerm t c.terms, ascending_insertTerm t c.ascending, nonzero_insertTerm h c.nonzero⟩

def ofTerms (terms : List Term) : Canonical :=
  terms.foldl insert empty

def coeff? (c : Canonical) (v : Variable) : Option Element :=
  (c.terms.find? fun t => t.var = v).map (·.coeff)

/-- The coefficient of a variable, or the fault that it has none. -/
def get (c : Canonical) (v : Variable) : Except Fault Element :=
  match c.coeff? v with
  | some x => .ok x
  | none => .error (.missingValue v)

def contains (c : Canonical) (v : Variable) : Bool := (c.coeff? v).isSome

def size (c : Canonical) : Nat := c.terms.length

def toLinComb (c : Canonical) : LinComb := ⟨c.terms⟩

/-- Canonical forms are equal when they have the same integers for the same variables. -/
def same (c d : Canonical) : Bool := c.toLinComb.same d.toLinComb

def literal (c : Canonical) : String := "CanonicalLinComb(" ++ c.toLinComb.text ++ ")"

end Canonical

def LinComb.canonical (a : LinComb) : Canonical := Canonical.ofTerms a.terms

end Circuit

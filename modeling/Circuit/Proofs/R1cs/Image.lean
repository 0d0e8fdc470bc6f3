import Mathlib.Data.Finset.Sort
import Circuit.Proofs.R1cs.Layout
import Circuit.Proofs.Variable.Wire

/-!
# The file of a program

What a constraint file says about a program, as a function of the program: variables become wires,
coefficients become integers, and the labels are the wires in use.

* `File.ofConstraints` is the file of the constraints behind an interface.
* `Sizing.compute_of_inside`: the first pass finds the sizes of that file, provided that every public
  variable lies in the public section; `Sizing.compute_of_outside` is the other case, and
  `Sizing.allInside_of_compute` the way back.
-/

namespace Circuit.R1cs

/-- The wires and integers of a combination, term by term. -/
def wireComb (shift : Nat) (a : LinComb) : WireComb :=
  a.terms.map fun t => (t.var.wireNumber shift, t.coeff.value)

def wireConstraint (shift : Nat) (c : Constraint) : WireConstraint :=
  (wireComb shift c.quad.left, wireComb shift c.quad.right, wireComb shift c.lin)

/-- The wires in use: the constant wire and those of all terms. -/
def wireSet (shift : Nat) (constraints : List Constraint) : Finset Nat :=
  insert 0 ((constraints.flatMap termsOf).map fun t => t.var.wireNumber shift).toFinset

/-- Every variable of the constraints has a wire. -/
def AllInside (shift : Nat) (constraints : List Constraint) : Prop :=
  ∀ t ∈ constraints.flatMap termsOf, t.var.Inside shift

theorem termsOf_eq (c : Constraint) :
    termsOf c = c.quad.left.terms ++ (c.quad.right.terms ++ c.lin.terms) := by
  simp [termsOf, Constraint.combs]

/-- The terms of a combination are terms of the constraints. -/
theorem mem_terms {constraints : List Constraint} {c : Constraint} (c_member : c ∈ constraints)
    {a : LinComb} (a_member : a ∈ c.combs) {t : Term} (t_member : t ∈ a.terms) :
    t ∈ constraints.flatMap termsOf :=
  List.mem_flatMap.2 ⟨c, c_member, List.mem_flatMap.2 ⟨a, a_member, t_member⟩⟩

/-- The file of the constraints behind an interface. -/
def File.ofConstraints (F : Field) (i : Interface) (constraints : List Constraint) : File where
  version := 1
  fieldSize := F.byteWidth
  prime := F.modulus
  wireCount := (wireSet i.publicCount constraints).card
  publicOutputs := i.returnCount.toNat
  publicInputs := i.publicParameters.length
  privateInputs := i.privateCount
  labelCount := (wireSet i.publicCount constraints).card
  constraintCount := constraints.length
  constraints := constraints.map (wireConstraint i.publicCount)
  labels := (wireSet i.publicCount constraints).sort
  sectionSizes :=
    [(2, (constraints.map fun c => 12 + (termsOf c).length * (F.byteWidth + 4)).sum),
      (1, 32 + F.byteWidth), (3, 8 * (wireSet i.publicCount constraints).card)]

/-! ### Ascending wires -/

/-- A row without its repetitions has the same members. -/
theorem mem_dropRepeats (a : Nat) (l : List Nat) : a ∈ dropRepeats l ↔ a ∈ l := by
  fun_induction dropRepeats l with
  | case1 b rest ih =>
    rw [ih]
    simp
  | case2 b c rest different ih =>
    rw [List.mem_cons, ih, List.mem_cons (l := c :: rest)]
  | case3 short => exact Iff.rfl

theorem dropRepeats_ascending (l : List Nat) (sorted : l.Pairwise (· ≤ ·)) :
    (dropRepeats l).Pairwise (· < ·) := by
  fun_induction dropRepeats l with
  | case1 b rest ih => exact ih (List.pairwise_cons.1 sorted).2
  | case2 b c rest different ih =>
    obtain ⟨above, later⟩ := List.pairwise_cons.1 sorted
    refine List.pairwise_cons.2 ⟨fun d member => ?_, ih later⟩
    have first : b < c := Nat.lt_of_le_of_ne (above c List.mem_cons_self) different
    rcases List.mem_cons.1 ((mem_dropRepeats d _).1 member) with rfl | member
    · exact first
    · exact Nat.lt_of_lt_of_le first ((List.pairwise_cons.1 later).1 d member)
  | case3 short long =>
    match short, long with
    | [], _ => exact List.Pairwise.nil
    | [b], _ => exact List.pairwise_singleton _ b
    | b :: c :: rest, long => exact absurd rfl (long b c rest)

/-- Sorting and dropping repetitions lists a set in ascending order. -/
theorem sortedWires_eq (l : List Nat) : sortedWires l = l.toFinset.sort := by
  have sorted : (l.mergeSort fun a b => decide (a ≤ b)).Pairwise (· ≤ ·) := by
    have by_key : (l.mergeSort fun a b => decide (a ≤ b)).Pairwise
        (fun a b => decide (a ≤ b) = true) := by
      apply List.pairwise_mergeSort
      · intro a b c
        simp only [decide_eq_true_eq]
        omega
      · intro a b
        simp only [Bool.or_eq_true, decide_eq_true_eq]
        omega
    exact by_key.imp of_decide_eq_true
  have ascending : (sortedWires l).Pairwise (· < ·) := dropRepeats_ascending _ sorted
  have members : (sortedWires l).toFinset = l.toFinset := by
    apply Finset.ext
    intro n
    rw [List.mem_toFinset, List.mem_toFinset, sortedWires, mem_dropRepeats, List.mem_mergeSort]
  -- An ascending row is the only one with its members.
  rw [← members]
  exact ((List.toFinset_sort (· ≤ ·) (ascending.imp Nat.ne_of_lt)).2
    (ascending.imp Nat.le_of_lt)).symm

/-! ### The first pass -/

/-- Where every variable has a wire, all wires are found. -/
theorem wiresOfTerms_of_inside (shift : Nat) (ts : List Term)
    (inside : ∀ t ∈ ts, t.var.Inside shift) :
    wiresOfTerms shift ts = .ok (ts.map fun t => t.var.wireNumber shift) := by
  induction ts with
  | nil => rfl
  | cons t rest ih =>
    have here := Variable.wire_of_inside shift t.var (inside t List.mem_cons_self)
    have later := ih fun u member => inside u (List.mem_cons_of_mem t member)
    simp only [wiresOfTerms, here, later, Except.map, List.map_cons]

/-- The first variable without a wire ends the pass. -/
theorem wiresOfTerms_of_outside (shift : Nat) (before after : List Term) (t : Term)
    (inside : ∀ u ∈ before, u.var.Inside shift) (outside : ¬ t.var.Inside shift) :
    wiresOfTerms shift (before ++ t :: after) =
      .error (t.var.outside (Decimal.ofNat shift)) := by
  induction before with
  | nil =>
    have here := Variable.wire_of_not_inside shift t.var outside
    simp only [List.nil_append, wiresOfTerms, here]
  | cons u rest ih =>
    have here := Variable.wire_of_inside shift u.var (inside u List.mem_cons_self)
    have later := ih fun v member => inside v (List.mem_cons_of_mem u member)
    simp only [List.cons_append, wiresOfTerms, here, later, Except.map]

theorem constraintSize_eq (width : Nat) (c : Constraint) :
    constraintSize width c = 12 + (termsOf c).length * (width + 4) := by
  rw [termsOf_eq]
  simp only [constraintSize, Constraint.combs, List.foldr, combSize, LinComb.size,
    List.length_append, Nat.add_mul, Nat.add_comm width 4]
  omega

theorem bodySize_eq (width : Nat) (constraints : List Constraint) :
    bodySize width constraints =
      (constraints.map fun c => 12 + (termsOf c).length * (width + 4)).sum := by
  induction constraints with
  | nil => rfl
  | cons c rest ih =>
    rw [List.map_cons, List.sum_cons, ← ih, ← constraintSize_eq]
    rfl

/-- The sizes of the file of the constraints behind an interface. -/
def Sizing.ofConstraints (F : Field) (i : Interface) (constraints : List Constraint) : Sizing where
  header := ⟨F.byteWidth, Bytes.littleEndian F.byteWidth F.modulus,
    (wireSet i.publicCount constraints).card, i.returnCount, i.publicParameters.length,
    i.privateCount, (wireSet i.publicCount constraints).card, constraints.length⟩
  shift := i.publicCount
  wires := (wireSet i.publicCount constraints).sort
  constraintsSize := (constraints.map fun c => 12 + (termsOf c).length * (F.byteWidth + 4)).sum

/-- Where every variable has a wire, the first pass succeeds. -/
theorem Sizing.compute_of_inside (F : Field) (i : Interface) (constraints : List Constraint)
    (inside : AllInside i.publicCount constraints) :
    Sizing.compute F i constraints = .ok (Sizing.ofConstraints F i constraints) := by
  have wires : sortedWires (0 :: (constraints.flatMap termsOf).map fun t =>
      t.var.wireNumber i.publicCount) = (wireSet i.publicCount constraints).sort := by
    rw [sortedWires_eq, List.toFinset_cons]
    rfl
  unfold Sizing.compute Sizing.ofConstraints
  rw [wiresOfTerms_of_inside _ _ inside]
  simp only [wires, bodySize_eq, Finset.length_sort]

/-- The first variable outside the public section ends the first pass. -/
theorem Sizing.compute_of_outside (F : Field) (i : Interface) (constraints : List Constraint)
    (before after : List Term) (t : Term)
    (split : constraints.flatMap termsOf = before ++ t :: after)
    (inside : ∀ u ∈ before, u.var.Inside i.publicCount) (outside : ¬ t.var.Inside i.publicCount) :
    Sizing.compute F i constraints =
      .error (t.var.outside (Decimal.ofNat i.publicCount)) := by
  unfold Sizing.compute
  rw [split, wiresOfTerms_of_outside _ before after t inside outside]

/-- Where not every variable has a wire, there is a first one without. -/
theorem exists_first_outside (shift : Nat) (ts : List Term)
    (some_outside : ¬ ∀ t ∈ ts, t.var.Inside shift) :
    ∃ before t after, ts = before ++ t :: after ∧ (∀ u ∈ before, u.var.Inside shift) ∧
      ¬ t.var.Inside shift := by
  cases found : ts.find? fun t => decide (¬ t.var.Inside shift) with
  | none =>
    refine absurd (fun t member => ?_) some_outside
    simpa using List.find?_eq_none.1 found t member
  | some t =>
    obtain ⟨outside, before, after, parts, inside⟩ := List.find?_eq_some_iff_append.1 found
    refine ⟨before, t, after, parts, fun u member => ?_, of_decide_eq_true outside⟩
    simpa using inside u member

/-- The sizes are found only if every public variable lies in the public section. -/
theorem Sizing.allInside_of_compute (F : Field) (i : Interface) (constraints : List Constraint)
    (sizing : Sizing) (found : Sizing.compute F i constraints = .ok sizing) :
    AllInside i.publicCount constraints := by
  by_contra not_all
  obtain ⟨before, t, after, split, inside, outside⟩ := exists_first_outside _ _ not_all
  rw [Sizing.compute_of_outside F i constraints before after t split inside outside] at found
  cases found

end Circuit.R1cs

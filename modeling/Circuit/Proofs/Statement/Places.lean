import Mathlib.Data.List.Lex
import Mathlib.Data.Set.Card
import Circuit.Proofs.Statement.Flatten

/-!
# Places of statements

A place says where a statement stands: which member of the program's row to take, then which member of the
block found there, and so on. In lexicographic order the places follow the source, depth first.

* `Statement.at?` is the statement at a place.
* `Statement.leaves` lists the statements outside of blocks with their places: these and no others
  (`mem_leaves_iff`), in ascending order (`leaves_ascending`), and they are what is left when blocks are taken
  apart (`map_snd_leaves`).
* `Program.encard_places` counts places by counting in that list; `Program.getElem?_leaves_iff` is the number
  of statements outside of blocks that come before a place.
-/

namespace Circuit

namespace Statement

/-- The statement at a place, counted from inside a statement. -/
def at? : Statement → List Nat → Option Statement
  | s, [] => some s
  | .block body, n :: place => body[n]?.bind fun s => at? s place
  | _, _ :: _ => none

mutual

def leaves : Statement → List (List Nat × Statement)
  | .block body => leavesFrom 0 body
  | s => [([], s)]

/-- The statements of a row outside of blocks, with their places; the first member has the given number. -/
def leavesFrom : Nat → List Statement → List (List Nat × Statement)
  | _, [] => []
  | n, s :: rest => (leaves s).map (fun l => (n :: l.1, l.2)) ++ leavesFrom (n + 1) rest

end

theorem leaves_of_not_block {s : Statement} (single : s.isBlock = false) : leaves s = [([], s)] := by
  cases s with
  | block body => cases single
  | _ => rw [leaves]; exact fun _ => nofun

mutual

/-- The leaves are what is left when blocks are opened, in that order. -/
theorem map_snd_leaves : ∀ s : Statement, (leaves s).map Prod.snd = flatten s
  | .constraint c => by simp [leaves, flatten]
  | .directive d => by simp [leaves, flatten]
  | .log l => by simp [leaves, flatten]
  | .block body => by rw [leaves, flatten, map_snd_leavesFrom 0 body]

theorem map_snd_leavesFrom : ∀ (n : Nat) (ss : List Statement),
    (leavesFrom n ss).map Prod.snd = flattenAll ss
  | _, [] => rfl
  | n, s :: rest => by
      rw [leavesFrom, flattenAll, List.map_append, List.map_map, map_snd_leavesFrom (n + 1) rest,
        ← map_snd_leaves s]
      rfl

end

/-- A place in a row starts with the number of a member, and goes on inside of that. -/
theorem mem_leavesFrom_iff {n : Nat} {ss : List Statement} {place : List Nat} {t : Statement} :
    (place, t) ∈ leavesFrom n ss ↔
      ∃ k s rest, ss[k]? = some s ∧ place = (n + k) :: rest ∧ (rest, t) ∈ leaves s := by
  induction ss generalizing n with
  | nil => simp [leavesFrom]
  | cons s others ih =>
    rw [leavesFrom, List.mem_append, ih, List.mem_map]
    constructor
    · rintro (⟨⟨rest, u⟩, member, equal⟩ | ⟨k, u, rest, found, rfl, member⟩)
      · cases equal
        exact ⟨0, s, rest, rfl, rfl, member⟩
      · exact ⟨k + 1, u, rest, found, by rw [Nat.add_right_comm, Nat.add_assoc], member⟩
    · rintro ⟨k, u, rest, found, rfl, member⟩
      cases k with
      | zero =>
        cases found
        exact .inl ⟨(rest, t), member, rfl⟩
      | succ k => exact .inr ⟨k, u, rest, found, by rw [Nat.add_right_comm, Nat.add_assoc], member⟩

/-- The list has all places of statements that are no blocks. -/
theorem mem_leaves_iff {s : Statement} {place : List Nat} {t : Statement} :
    (place, t) ∈ leaves s ↔ s.at? place = some t ∧ t.isBlock = false := by
  induction place generalizing s with
  | nil =>
    cases single : s.isBlock with
    | false =>
      rw [leaves_of_not_block single, List.mem_singleton, at?]
      constructor
      · rintro ⟨⟩
        exact ⟨rfl, single⟩
      · rintro ⟨⟨⟩, -⟩
        rfl
    | true =>
      cases s with
      | block body =>
        rw [leaves, mem_leavesFrom_iff, at?]
        constructor
        · rintro ⟨k, u, rest, -, ⟨⟩, -⟩
        · rintro ⟨⟨⟩, ⟨⟩⟩
      | _ => cases single
  | cons n rest ih =>
    cases s with
    | block body =>
      rw [leaves, mem_leavesFrom_iff, at?]
      constructor
      · rintro ⟨k, u, _, found, equal, member⟩
        rw [Nat.zero_add] at equal
        cases equal
        obtain ⟨inside, leaf⟩ := ih.1 member
        exact ⟨Option.bind_eq_some_iff.2 ⟨u, found, inside⟩, leaf⟩
      · rintro ⟨inside, leaf⟩
        obtain ⟨u, found, inside⟩ := Option.bind_eq_some_iff.1 inside
        exact ⟨n, u, rest, found, by rw [Nat.zero_add], ih.2 ⟨inside, leaf⟩⟩
    | _ => simp [leaves, at?]

mutual

/-- The places of leaves ascend as they are found, depth first. -/
theorem leaves_ascending : ∀ s : Statement, (leaves s).Pairwise fun l m => l.1 < m.1
  | .constraint c => by simp [leaves]
  | .directive d => by simp [leaves]
  | .log l => by simp [leaves]
  | .block body => by
      rw [leaves]
      exact leavesFrom_ascending 0 body

theorem leavesFrom_ascending : ∀ (n : Nat) (ss : List Statement),
    (leavesFrom n ss).Pairwise fun l m => l.1 < m.1
  | _, [] => .nil
  | n, s :: rest => by
      rw [leavesFrom, List.pairwise_append, List.pairwise_map]
      refine ⟨(leaves_ascending s).imp fun less => List.cons_lt_cons_iff.2 (.inr ⟨rfl, less⟩),
        leavesFrom_ascending (n + 1) rest, ?_⟩
      rintro l here ⟨place, t⟩ later
      obtain ⟨first, -, rfl⟩ := List.mem_map.1 here
      obtain ⟨k, u, inside, -, rfl, -⟩ := mem_leavesFrom_iff.1 later
      exact List.cons_lt_cons_iff.2 (.inl (by omega))

end

end Statement

namespace Program

/-- The statement at a place of the program. The row of the program counts as a block, which stands at the
empty place. -/
def at? (p : Program) (place : List Nat) : Option Statement := (Statement.block p.statements).at? place

/-- A place of a statement that is no block. -/
def IsLeaf (p : Program) (place : List Nat) : Prop := ∃ s, p.at? place = some s ∧ s.isBlock = false

def leaves (p : Program) : List (List Nat × Statement) := (Statement.block p.statements).leaves

variable (p : Program)

theorem map_snd_leaves : p.leaves.map Prod.snd = p.clean.statements := by
  rw [leaves, Statement.map_snd_leaves, Statement.flatten]
  rfl

theorem leaves_ascending : p.leaves.Pairwise fun l m => l.1 < m.1 :=
  Statement.leaves_ascending _

variable {p}

/-- Every place with a statement that is no block is found, and no other. -/
theorem mem_leaves_iff {place : List Nat} {s : Statement} :
    (place, s) ∈ p.leaves ↔ p.at? place = some s ∧ s.isBlock = false :=
  Statement.mem_leaves_iff

theorem at?_of_mem_leaves {l : List Nat × Statement} (member : l ∈ p.leaves) : p.at? l.1 = some l.2 :=
  (mem_leaves_iff.1 member).1

/-- As many places as entries of the list: no place is listed twice. -/
theorem encard_places (p : Program) (q : List Nat × Statement → Bool) :
    {place | ∃ s, (place, s) ∈ p.leaves ∧ q (place, s) = true}.encard = (p.leaves.filter q).length := by
  have distinct : ((p.leaves.filter q).map Prod.fst).Nodup := by
    rw [List.Nodup, List.pairwise_map]
    exact (p.leaves_ascending.filter q).imp ne_of_lt
  have places : {place | ∃ s, (place, s) ∈ p.leaves ∧ q (place, s) = true} =
      ((p.leaves.filter q).map Prod.fst).toFinset := by
    ext place
    simp
  rw [places, Set.encard_coe_eq_coe_finsetCard, List.toFinset_card_of_nodup distinct, List.length_map]

section Split

variable {before after : List (List Nat × Statement)} {place : List Nat} {s : Statement}
  (split : p.leaves = before ++ (place, s) :: after)

include split

theorem lt_of_mem_before {l : List Nat × Statement} (member : l ∈ before) : l.1 < place := by
  have order := p.leaves_ascending
  rw [split, List.pairwise_append] at order
  exact order.2.2 l member _ List.mem_cons_self

theorem not_lt_of_mem_after {l : List Nat × Statement} (member : l ∈ (place, s) :: after) :
    ¬ l.1 < place := by
  have order := p.leaves_ascending
  rw [split, List.pairwise_append, List.pairwise_cons] at order
  rcases List.mem_cons.1 member with rfl | later
  · exact List.lt_irrefl _
  · exact List.lt_asymm (order.2.1.1 l later)

/-- The number of a leaf among all of them counts the leaves before it. -/
theorem encard_earlier : {earlier | earlier < place ∧ p.IsLeaf earlier}.encard = before.length := by
  have here : p.leaves.filter (fun l => decide (l.1 < place)) = before := by
    rw [split, List.filter_append, List.filter_eq_self.2, List.filter_eq_nil_iff.2, List.append_nil]
    · intro l member less
      exact not_lt_of_mem_after split member (of_decide_eq_true less)
    · intro l member
      exact decide_eq_true (lt_of_mem_before split member)
  rw [← here, ← p.encard_places fun l => decide (l.1 < place)]
  congr 1
  ext earlier
  simp only [IsLeaf, ← mem_leaves_iff, Set.mem_ofPred_eq, decide_eq_true_eq]
  tauto

end Split

/-- The number of a statement in the list is the number of statements outside of blocks before it. -/
theorem getElem?_leaves_iff {n : Nat} {place : List Nat} {s : Statement} :
    p.leaves[n]? = some (place, s) ↔
      (place, s) ∈ p.leaves ∧ {earlier | earlier < place ∧ p.IsLeaf earlier}.encard = n := by
  constructor
  · intro found
    obtain ⟨bound, here⟩ := List.getElem?_eq_some_iff.1 found
    have split : p.leaves = p.leaves.take n ++ (place, s) :: p.leaves.drop (n + 1) := by
      rw [← here, List.getElem_cons_drop, List.take_append_drop]
    refine ⟨List.mem_of_getElem? found, ?_⟩
    rw [encard_earlier split, List.length_take_of_le (Nat.le_of_lt bound)]
  · rintro ⟨member, number⟩
    obtain ⟨before, after, split⟩ := List.append_of_mem member
    rw [encard_earlier split] at number
    rw [split, ← ENat.natCast_inj.1 number, List.getElem?_append_right (Nat.le_refl _), Nat.sub_self]
    rfl

end Program

end Circuit

import Mathlib.Data.List.TakeWhile
import Circuit.Proofs.Program.Equality
import Circuit.Proofs.Source.Reading
import Circuit.Proofs.Statement.Places

/-!
# Blocks put around statements and taken away

A program is regrouped when runs of its statements are put into blocks, or blocks are opened, at any depth.
Its clean form shows nothing of that, and nothing but that is lost in it.

* `Statement.regrouped_iff`: rows are regroupings of each other exactly when the same is left of them without
  blocks.
* `Program.equalsClean_iff`: a program equals its clean form exactly when it has no block at the top level.
* `Program.clean_only_opens_blocks` puts together what the clean form keeps.
-/

namespace Circuit

open R1cs

/-! ### Regroupings -/

namespace Statement

/-- One block more: a run of a row, or of a block in it, is put into a block of its own. -/
inductive Wraps : List Statement → List Statement → Prop
  | here (before run after : List Statement) :
      Wraps (before ++ run ++ after) (before ++ .block run :: after)
  | inside (before after : List Statement) {body wrapped : List Statement} (step : Wraps body wrapped) :
      Wraps (before ++ .block body :: after) (before ++ .block wrapped :: after)

/-- Rows that putting runs into blocks and opening blocks turn into each other. -/
def Regrouped : List Statement → List Statement → Prop := Relation.EqvGen Wraps

theorem flattenAll_append (ss ts : List Statement) :
    flattenAll (ss ++ ts) = flattenAll ss ++ flattenAll ts := by
  induction ss with
  | nil => rfl
  | cons s rest ih => rw [List.cons_append, flattenAll, flattenAll, ih, List.append_assoc]

theorem flattenAll_block (before body after : List Statement) :
    flattenAll (before ++ .block body :: after) =
      flattenAll before ++ (flattenAll body ++ flattenAll after) := by
  rw [flattenAll_append, flattenAll, flatten]

/-- A block more or less is not seen once blocks are opened. -/
theorem Wraps.flattenAll_eq {ss ts : List Statement} (step : Wraps ss ts) :
    flattenAll ss = flattenAll ts := by
  induction step with
  | here before run after =>
    rw [flattenAll_append, flattenAll_append, flattenAll_block, List.append_assoc]
  | inside before after step ih => rw [flattenAll_block, flattenAll_block, ih]

theorem Wraps.append_left (us : List Statement) {ss ts : List Statement} (step : Wraps ss ts) :
    Wraps (us ++ ss) (us ++ ts) := by
  cases step with
  | here before run after =>
    have wrapped := Wraps.here (us ++ before) run after
    rwa [List.append_assoc, List.append_assoc, List.append_assoc, ← List.append_assoc before] at wrapped
  | inside before after step =>
    have wrapped := Wraps.inside (us ++ before) after step
    rwa [List.append_assoc, List.append_assoc] at wrapped

theorem Wraps.append_right (us : List Statement) {ss ts : List Statement} (step : Wraps ss ts) :
    Wraps (ss ++ us) (ts ++ us) := by
  cases step with
  | here before run after =>
    have wrapped := Wraps.here before run (after ++ us)
    rwa [← List.append_assoc, ← List.cons_append, ← List.append_assoc] at wrapped
  | inside before after step =>
    have wrapped := Wraps.inside before (after ++ us) step
    rwa [← List.cons_append, ← List.append_assoc, ← List.cons_append, ← List.append_assoc] at wrapped

namespace Regrouped

variable {ss ts us : List Statement}

theorem refl (ss : List Statement) : Regrouped ss ss := Relation.EqvGen.refl ss

theorem symm (h : Regrouped ss ts) : Regrouped ts ss := Relation.EqvGen.symm _ _ h

theorem trans (first : Regrouped ss ts) (second : Regrouped ts us) : Regrouped ss us :=
  Relation.EqvGen.trans _ _ _ first second

/-- A row may be regrouped inside of a longer one. -/
theorem within {f : List Statement → List Statement} (step : ∀ {ss ts}, Wraps ss ts → Wraps (f ss) (f ts))
    (h : Regrouped ss ts) : Regrouped (f ss) (f ts) := by
  induction h with
  | rel ss ts wrapped => exact .rel _ _ (step wrapped)
  | refl ss => exact refl _
  | symm ss ts _ ih => exact ih.symm
  | trans ss ts us _ _ first second => exact first.trans second

theorem append {vs : List Statement} (first : Regrouped ss ts) (second : Regrouped us vs) :
    Regrouped (ss ++ us) (ts ++ vs) :=
  (first.within (Wraps.append_right us)).trans (second.within (Wraps.append_left ts))

/-- Regrouping is an equivalence, and each of its steps keeps the statements outside of blocks. -/
theorem flattenAll_eq (h : Regrouped ss ts) : flattenAll ss = flattenAll ts := by
  induction h with
  | rel ss ts step => exact step.flattenAll_eq
  | refl ss => rfl
  | symm ss ts _ ih => exact ih.symm
  | trans ss ts us _ _ first second => exact first.trans second

end Regrouped

theorem regrouped_block (body : List Statement) : Regrouped [.block body] body := by
  have wrapped := Wraps.here [] body []
  rw [List.nil_append, List.append_nil, List.nil_append] at wrapped
  exact .symm (.rel _ _ wrapped)

mutual

/-- Opening blocks one after another leaves what is outside of blocks. -/
theorem regrouped_flatten : ∀ s : Statement, Regrouped [s] (flatten s)
  | .constraint c => by rw [flatten_of_not_block rfl]; exact .refl _
  | .directive d => by rw [flatten_of_not_block rfl]; exact .refl _
  | .log l => by rw [flatten_of_not_block rfl]; exact .refl _
  | .block body => by
      rw [flatten]
      exact (regrouped_block body).trans (regrouped_flattenAll body)

theorem regrouped_flattenAll : ∀ ss : List Statement, Regrouped ss (flattenAll ss)
  | [] => .refl []
  | s :: rest => by
      rw [flattenAll]
      exact (regrouped_flatten s).append (regrouped_flattenAll rest)

end

/-- Rows can be turned into each other exactly if they have the same statements outside of blocks: both can be
opened. -/
theorem regrouped_iff (ss ts : List Statement) : Regrouped ss ts ↔ flattenAll ss = flattenAll ts := by
  constructor
  · exact Regrouped.flattenAll_eq
  · intro equal
    have opened := regrouped_flattenAll ts
    rw [← equal] at opened
    exact (regrouped_flattenAll ss).trans opened.symm

end Statement

/-! ### The program beside its clean form -/

theorem Entry.sameAll_append (row xs ys : List Entry) :
    sameAll row.length (row ++ xs) (row ++ ys) = sameAll 0 xs ys := by
  induction row with
  | nil => rfl
  | cons x rest ih => simp [sameAll, ih]

namespace Statement

/-- A row that goes on with a block is unequal to one that has none. -/
theorem sameAll_block (body after : List Statement) {ss : List Statement}
    (single : ∀ s ∈ ss, s.isBlock = false) : sameAll ss (.block body :: after) = false := by
  cases ss with
  | nil => rfl
  | cons s rest =>
    have here := single s List.mem_cons_self
    cases s with
    | block body => cases here
    | _ => simp [sameAll, same]

/-- A row has no block, or it has a first one. -/
theorem no_block_or_first (ss : List Statement) :
    (∀ s ∈ ss, s.isBlock = false) ∨
      ∃ before body after, ss = before ++ .block body :: after ∧ ∀ s ∈ before, s.isBlock = false := by
  induction ss with
  | nil => exact .inl fun _ member => absurd member List.not_mem_nil
  | cons s rest ih =>
    cases kind : s.isBlock with
    | true =>
      cases s with
      | block body => exact .inr ⟨[], body, rest, rfl, fun _ member => absurd member List.not_mem_nil⟩
      | _ => cases kind
    | false =>
      rcases ih with single | ⟨before, body, after, rfl, single⟩
      · exact .inl (List.forall_mem_cons.2 ⟨kind, single⟩)
      · exact .inr ⟨s :: before, body, after, rfl, List.forall_mem_cons.2 ⟨kind, single⟩⟩

end Statement

namespace Program

/-- A program equals its clean form exactly when no statement of the top level is a block. -/
theorem equalsClean_iff (p : Program) : p.equalsClean = true ↔ p.hasBlocks = false := by
  have interfaces : p.clean.interface.same p.interface = true := (Interface.same_iff _ _).2 ⟨rfl, rfl⟩
  unfold equalsClean leading entries
  rw [interfaces, Bool.true_and, hasBlocks_eq_false]
  rcases Statement.no_block_or_first p.statements with single | ⟨before, body, after, split, single⟩
  · have all : p.statements.takeWhile (fun s => !s.isBlock) = p.statements :=
      List.takeWhile_eq_self_iff.2 fun s member => by rw [single s member]; rfl
    have shared := Entry.sameAll_of_shared (p.statements.map .statement) []
    rw [List.append_nil, List.length_map] at shared
    rw [clean_eq_self (hasBlocks_eq_false.2 single), all, shared]
    exact iff_of_true rfl single
  · have lead : p.statements.takeWhile (fun s => !s.isBlock) = before := by
      rw [split, List.takeWhile_append_of_pos fun s member => by rw [single s member]; rfl]
      exact List.append_nil before
    -- Behind the statements that both rows share, only one of them goes on with a block.
    have later := Statement.sameAll_block body after
      (Statement.not_block_of_mem_flattenAll (.block body :: after))
    have opened : p.clean.statements = before ++ Statement.flattenAll (.block body :: after) := by
      unfold clean
      rw [split, Statement.flattenAll_append, Statement.flattenAll_eq_self single]
    have compared := Entry.sameAll_append (before.map .statement)
      ((Statement.flattenAll (.block body :: after)).map .statement)
      ((.block body :: after : List Statement).map .statement)
    rw [Entry.sameAll_statements, later, List.length_map, ← List.map_append, ← List.map_append, ← opened,
      ← split] at compared
    rw [lead, compared]
    refine iff_of_false Bool.false_ne_true fun flat => ?_
    have block := flat (.block body) (split ▸ List.mem_append_cons_self)
    cases block

/-! ### What the clean form keeps -/

/-- Programs that putting statements into blocks and opening blocks turn into each other. -/
def Regrouping (p q : Program) : Prop :=
  p.interface = q.interface ∧ Statement.Regrouped p.statements q.statements

/-- The same of programs, whose interfaces stay as they are. -/
theorem regrouping_iff (p q : Program) : p.Regrouping q ↔ p.clean = q.clean := by
  unfold Regrouping clean
  rw [Statement.regrouped_iff, mk.injEq]

/-- The constraints at the top level of the clean form are those at any place. -/
theorem constraintCount_clean (p : Program) :
    {place | ∃ c, p.at? place = some (.constraint c)}.encard = p.clean.constraintCount := by
  have listed := p.encard_places fun l => l.2.constraint?.isSome
  have places : {place | ∃ s, (place, s) ∈ p.leaves ∧ s.constraint?.isSome = true} =
      {place | ∃ c, p.at? place = some (.constraint c)} := by
    ext place
    constructor
    · rintro ⟨s, member, found⟩
      cases s with
      | constraint c => exact ⟨c, (mem_leaves_iff.1 member).1⟩
      | _ => cases found
    · rintro ⟨c, here⟩
      exact ⟨.constraint c, mem_leaves_iff.2 ⟨here, rfl⟩, rfl⟩
  rw [places] at listed
  rw [listed, constraintCount, constraints, ← map_snd_leaves, List.filterMap_map, ← List.countP_eq_length_filter,
    List.length_filterMap_eq_countP]
  rfl

/-- The clean form of a program has the program's interface. Its statements are those outside of blocks, each
as often as it stands in the program and in the order of their places; a second cleaning changes nothing, and
the first one does exactly where there is a block. All programs that regrouping leads to have one clean form,
and so one file. -/
theorem clean_only_opens_blocks (p : Program) :
    p.clean.interface = p.interface ∧
    p.clean.hasBlocks = false ∧
    (∃ places : List (List Nat), places.Pairwise (· < ·) ∧ (∀ place, place ∈ places ↔ p.IsLeaf place) ∧
      places.map p.at? = p.clean.statements.map some) ∧
    p.clean.clean = p.clean ∧
    (p.equalsClean = true ↔ p.hasBlocks = false) ∧
    {place | ∃ c, p.at? place = some (.constraint c)}.encard = p.clean.constraintCount ∧
    (∀ q : Program, p.Regrouping q ↔ p.clean = q.clean) ∧
    ∀ q : Program, p.Regrouping q → ∀ F, exportProgram F p.clean = exportProgram F q.clean := by
  refine ⟨rfl, p.hasBlocks_clean, ⟨p.leaves.map Prod.fst, ?_, fun place => ?_, ?_⟩, p.clean_clean,
    p.equalsClean_iff, p.constraintCount_clean, p.regrouping_iff, fun q regrouped F => ?_⟩
  · rw [List.pairwise_map]
    exact p.leaves_ascending
  · rw [List.mem_map]
    constructor
    · rintro ⟨⟨_, s⟩, member, rfl⟩
      exact ⟨s, mem_leaves_iff.1 member⟩
    · rintro ⟨s, leaf⟩
      exact ⟨(place, s), mem_leaves_iff.2 leaf, rfl⟩
  · rw [← map_snd_leaves, List.map_map, List.map_map]
    exact List.map_congr_left fun l member => at?_of_mem_leaves member
  · rw [(p.regrouping_iff q).1 regrouped]

end Program

/-- The nested program with its outer block opened, the inner one taken to the end of the row, and an empty
block in front. -/
def regroupedProgram : Program :=
  ⟨nestedProgram.interface, [.block [], .log ⟨.str "x", [(.str "Field", [sixfold])]⟩,
    .block [.constraint ⟨⟨sixfold, sixfold⟩, sixfold, some ⟨.str "Overflow", .null⟩⟩,
      .directive ⟨[⟨sixfold, sixfold⟩], [.loc 2 Nat.two_pos, .pub 0], Solver.bits (.int 2)⟩]]⟩

theorem regrouping_regroupedProgram : nestedProgram.Regrouping regroupedProgram := by
  let first : Statement := .log ⟨.str "x", [(.str "Field", [sixfold])]⟩
  let second : Statement := .constraint ⟨⟨sixfold, sixfold⟩, sixfold, some ⟨.str "Overflow", .null⟩⟩
  let third : Statement :=
    .directive ⟨[⟨sixfold, sixfold⟩], [.loc 2 Nat.two_pos, .pub 0], Solver.bits (.int 2)⟩
  have outer := Statement.Wraps.here [] [first, .block [second]] [third]
  have inner := Statement.Wraps.here [first] [second] [third]
  have longer := Statement.Wraps.here [first] [second, third] []
  have empty := Statement.Wraps.here [] [] [first, .block [second, third]]
  have opened : Statement.Regrouped nestedProgram.statements [first, second, third] :=
    (Relation.EqvGen.rel _ _ outer).symm.trans _ _ _ (Relation.EqvGen.rel _ _ inner).symm
  have closed : Statement.Regrouped [first, second, third] regroupedProgram.statements :=
    (Relation.EqvGen.rel _ _ longer).trans _ _ _ (Relation.EqvGen.rel _ _ empty)
  exact ⟨rfl, opened.trans closed⟩

theorem Program.clean_only_opens_blocks_nested :
    nestedProgram.Regrouping regroupedProgram ∧
      nestedProgram.clean.statements = regroupedProgram.clean.statements ∧
      {place | ∃ c, nestedProgram.at? place = some (.constraint c)}.encard = 1 ∧
      nestedProgram.equalsClean = false ∧ nestedProgram.clean.equalsClean = true ∧
      fileBytes Field.seven nestedProgram.clean = fileBytes Field.seven regroupedProgram.clean := by
  have regrouped := regrouping_regroupedProgram
  obtain ⟨-, flat, -, -, equal_iff, count, clean_iff, written⟩ := clean_only_opens_blocks nestedProgram
  obtain ⟨-, -, -, -, clean_equal_iff, -⟩ := clean_only_opens_blocks nestedProgram.clean
  refine ⟨regrouped, ?_, count.trans (by decide), ?_, clean_equal_iff.2 flat, ?_⟩
  · rw [(clean_iff _).1 regrouped]
  · rw [Bool.eq_false_iff, Ne, equal_iff]
    decide
  · unfold fileBytes
    rw [written regroupedProgram regrouped Field.seven]

end Circuit

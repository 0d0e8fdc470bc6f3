import Mathlib.Data.List.TakeWhile
import Circuit.Text.Blank

/-!
# Words between blanks

Blanks separate the words of a row, in any number and also at both ends, and no word has a blank in it. That
leaves one row of words for each row.

* `Words` says which words a row has, `wordsBy_eq_iff` that these are the words found.
* `Padded` says what stripping removes: `padded_stripBy` and `stripBy_of_padded`.
* `words_stripBy_iff`: the blanks at the ends play no part, and `stripBy_eq_nil_iff` says when there are no
  others.
* `append_inj_of_stop`: a run of members of a class ends at the first other one.
-/

namespace Circuit.Text

variable {α : Type} {p : α → Bool}

/-- A row consists of words with members of a class around them. A word ends at the next member of the class,
or with the row. -/
inductive Words (p : α → Bool) : List α → List (List α) → Prop
  | nil : Words p [] []
  | blank {c : α} {row : List α} {words : List (List α)} :
      p c = true → Words p row words → Words p (c :: row) words
  | word {word row : List α} {words : List (List α)} :
      word ≠ [] → (∀ c ∈ word, p c = false) → (∀ c ∈ row.head?, p c = true) → Words p row words →
      Words p (word ++ row) (word :: words)

/-- The words of a row are found also when some of its first word has gone by. -/
theorem words_wordsAfter {seen : List α} (clear : ∀ c ∈ seen, p c = false) (row : List α) :
    Words p (seen.reverse ++ row) (wordsAfter p seen row) := by
  induction row generalizing seen with
  | nil =>
      unfold wordsAfter
      cases seen with
      | nil => exact .nil
      | cons c seen => exact .word (by simp) (fun d member => clear d (List.mem_reverse.1 member)) nofun .nil
  | cons c row ih =>
      unfold wordsAfter
      by_cases hc : p c = true
      -- A member of the class ends the word that has gone by, if there is one.
      · have others : Words p (c :: row) (wordsAfter p [] row) :=
          .blank hc (ih (List.forall_mem_nil _))
        rw [if_pos hc]
        cases seen with
        | nil => exact others
        | cons d seen =>
            exact .word (by simp) (fun e member => clear e (List.mem_reverse.1 member)) (by simp [hc]) others
      · have longer := ih (List.forall_mem_cons.2 ⟨eq_false_of_ne_true hc, clear⟩)
        rw [if_neg hc]
        rwa [List.reverse_cons, List.append_assoc] at longer

/-- Characters of a word are put aside until the word ends. -/
theorem wordsAfter_append {word : List α} (clear : ∀ c ∈ word, p c = false) (seen row : List α) :
    wordsAfter p seen (word ++ row) = wordsAfter p (word.reverse ++ seen) row := by
  induction word generalizing seen with
  | nil => rfl
  | cons c word ih =>
      obtain ⟨first, others⟩ := List.forall_mem_cons.1 clear
      rw [List.cons_append, wordsAfter, if_neg (by simp [first]), ih others, List.reverse_cons,
        List.append_assoc]
      rfl

/-- A word is complete where the row ends or a blank follows. -/
theorem wordsAfter_of_head? {seen row : List α} (some_seen : seen ≠ [])
    (ends : ∀ c ∈ row.head?, p c = true) : wordsAfter p seen row = seen.reverse :: wordsBy p row := by
  cases row with
  | nil => simp [wordsAfter, wordsBy, some_seen]
  | cons c row => simp [wordsAfter, wordsBy, some_seen, ends c rfl]

/-- The words that are found are those of the description, for every row that has a description. -/
theorem wordsBy_of_words {row : List α} {words : List (List α)} (h : Words p row words) :
    wordsBy p row = words := by
  induction h with
  | nil => rfl
  | blank blank _ ih => rw [← ih, wordsBy, wordsAfter, if_pos blank, List.isEmpty_nil, if_pos rfl, wordsBy]
  | word some_word clear ends _ ih =>
      rw [wordsBy, wordsAfter_append clear, List.append_nil, wordsAfter_of_head? (by simpa) ends,
        List.reverse_reverse, ih]

/-- The words that are found are the words that the row consists of. -/
theorem wordsBy_eq_iff {row : List α} {words : List (List α)} : wordsBy p row = words ↔ Words p row words :=
  ⟨fun found => found ▸ words_wordsAfter (List.forall_mem_nil _) row, wordsBy_of_words⟩

namespace Words

/-- A row has only one row of words. -/
theorem unique {row : List α} {words others : List (List α)} (h : Words p row words)
    (h' : Words p row others) : words = others :=
  (wordsBy_of_words h).symm.trans (wordsBy_of_words h')

theorem append_blanks {row blanks : List α} {words : List (List α)} (h : Words p row words)
    (all : ∀ c ∈ blanks, p c = true) : Words p (row ++ blanks) words := by
  induction h with
  | nil =>
      induction blanks with
      | nil => exact .nil
      | cons c blanks ih =>
          obtain ⟨first, others⟩ := List.forall_mem_cons.1 all
          exact .blank first (ih others)
  | blank blank _ ih => exact .blank blank ih
  | @word word row words some_word clear ends _ ih =>
      rw [List.append_assoc]
      refine .word some_word clear ?_ ih
      cases row with
      | nil => exact fun c first => all c (List.mem_of_mem_head? first)
      | cons d row => exact ends

theorem blanks_append {row blanks : List α} {words : List (List α)} (h : Words p row words)
    (all : ∀ c ∈ blanks, p c = true) : Words p (blanks ++ row) words := by
  induction blanks with
  | nil => exact h
  | cons c blanks ih =>
      obtain ⟨first, others⟩ := List.forall_mem_cons.1 all
      exact .blank first (ih others)

/-- A single word is the whole row. -/
theorem single {word : List α} (some_word : word ≠ []) (clear : ∀ c ∈ word, p c = false) :
    Words p word [word] := by
  have whole : Words p (word ++ []) [word] := .word some_word clear nofun .nil
  rwa [List.append_nil] at whole

/-- Two words with one blank between them. -/
theorem pair {first second : List α} {c : α} (some_first : first ≠ [])
    (first_clear : ∀ d ∈ first, p d = false) (blank : p c = true) (some_second : second ≠ [])
    (second_clear : ∀ d ∈ second, p d = false) : Words p (first ++ c :: second) [first, second] :=
  .word some_first first_clear (by simpa using blank) (.blank blank (single some_second second_clear))

end Words

/-! ### Blanks at the ends -/

/-- A row is a core with members of a class around it. -/
def Padded (p : α → Bool) (core row : List α) : Prop :=
  ∃ before after, row = before ++ core ++ after ∧ (∀ c ∈ before, p c = true) ∧ ∀ c ∈ after, p c = true

theorem Padded.refl (p : α → Bool) (row : List α) : Padded p row row :=
  ⟨[], [], by simp, List.forall_mem_nil _, List.forall_mem_nil _⟩

/-- What is removed at the ends are members of the class. -/
theorem padded_stripBy (p : α → Bool) (row : List α) : Padded p (stripBy p row) row := by
  let rest := row.dropWhile p
  refine ⟨row.takeWhile p, (rest.reverse.takeWhile p).reverse, ?_, fun c member =>
    List.mem_takeWhile_imp member, fun c member => List.mem_takeWhile_imp (List.mem_reverse.1 member)⟩
  rw [List.append_assoc, stripBy, ← List.reverse_append, List.takeWhile_append_dropWhile,
    List.reverse_reverse, List.takeWhile_append_dropWhile]

/-- Blanks at the ends are no part of any word. -/
theorem words_stripBy_iff {row : List α} {words : List (List α)} :
    Words p (stripBy p row) words ↔ Words p row words := by
  obtain ⟨before, after, split, before_blank, after_blank⟩ := padded_stripBy p row
  have kept : Words p row (wordsBy p (stripBy p row)) := by
    conv => arg 2; rw [split]
    exact ((wordsBy_eq_iff.1 rfl).blanks_append before_blank).append_blanks after_blank
  constructor
  · intro h
    rwa [wordsBy_of_words h] at kept
  · intro h
    exact wordsBy_eq_iff.1 (kept.unique h)

/-- Nothing remains exactly when there is nothing but members of the class. -/
theorem stripBy_eq_nil_iff {row : List α} : stripBy p row = [] ↔ ∀ c ∈ row, p c = true := by
  obtain ⟨before, after, split, before_blank, after_blank⟩ := padded_stripBy p row
  constructor
  · intro none_left c member
    rw [split, none_left, List.append_nil] at member
    exact (List.mem_append.1 member).elim (before_blank c) (after_blank c)
  · intro all
    rw [stripBy, List.dropWhile_eq_nil_iff.2 all]
    rfl

theorem dropWhile_of_clear {core : List α} (some_core : core ≠ []) (clear : ∀ c ∈ core, p c = false)
    (rest : List α) : (core ++ rest).dropWhile p = core ++ rest := by
  cases core with
  | nil => exact absurd rfl some_core
  | cons c core => exact List.dropWhile_cons_of_neg (by simp [clear c])

/-- A core without members of the class is all that remains. -/
theorem stripBy_of_padded {core row : List α} (clear : ∀ c ∈ core, p c = false) (padded : Padded p core row) :
    stripBy p row = core := by
  obtain ⟨before, after, rfl, before_blank, after_blank⟩ := padded
  by_cases some_core : core = []
  · subst some_core
    rw [List.append_nil]
    exact stripBy_eq_nil_iff.2 (List.forall_mem_append.2 ⟨before_blank, after_blank⟩)
  · have reverse_core : core.reverse ≠ [] := by simpa using some_core
    have reverse_clear : ∀ c ∈ core.reverse, p c = false := by simpa using clear
    have reverse_after : ∀ c ∈ after.reverse, p c = true := by simpa using after_blank
    unfold stripBy
    rw [List.append_assoc, List.dropWhile_append_of_pos before_blank, dropWhile_of_clear some_core clear,
      List.reverse_append, List.dropWhile_append_of_pos reverse_after, ← List.append_nil core.reverse,
      dropWhile_of_clear reverse_core reverse_clear, List.append_nil, List.reverse_reverse]

/-- Nothing is removed from a row that has no member of the class. -/
theorem stripBy_eq_self {row : List α} (clear : ∀ c ∈ row, p c = false) : stripBy p row = row :=
  stripBy_of_padded clear (.refl p row)

/-! ### Runs -/

theorem takeWhile_append_of_stop {run rest : List α} (members : ∀ c ∈ run, p c = true)
    (stop : ∀ c ∈ rest.head?, p c = false) : (run ++ rest).takeWhile p = run := by
  have none_taken : rest.takeWhile p = [] := by
    cases rest with
    | nil => rfl
    | cons c rest => exact List.takeWhile_cons_of_neg (by simp [stop c rfl])
  rw [List.takeWhile_append_of_pos members, none_taken, List.append_nil]

/-- A row begins with one run of members of a class that ends where another character or nothing follows. -/
theorem append_inj_of_stop {run run' rest rest' : List α} (members : ∀ c ∈ run, p c = true)
    (members' : ∀ c ∈ run', p c = true) (stop : ∀ c ∈ rest.head?, p c = false)
    (stop' : ∀ c ∈ rest'.head?, p c = false) (same : run ++ rest = run' ++ rest') :
    run = run' ∧ rest = rest' := by
  have runs : run = run' := by
    rw [← takeWhile_append_of_stop members stop, same, takeWhile_append_of_stop members' stop']
  subst runs
  exact ⟨rfl, List.append_cancel_left same⟩

end Circuit.Text

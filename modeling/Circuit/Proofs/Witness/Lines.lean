import Mathlib.Data.List.Basic
import Circuit.Proofs.Field.Text
import Circuit.Proofs.Text.Words
import Circuit.Proofs.Variable.Text
import Circuit.Proofs.Witness.Values
import Circuit.Witness.File

/-!
# The lines of a witness file

A line of a witness file is blank, or it assigns a value to a variable, or it is at fault. The lines before it
matter in one point only: they may name its variable already.

* `Text.HasLines` divides a text into lines, which `Witness.splitLines_eq_iff` finds.
* `Witness.Assigns` and `Witness.Offends` say what a line is, by its words; `Witness.entryLine` is the line of two
  given words.
* `Witness.blank_or_assigns_or_offends`: there is nothing else. Each kind of line is read by
  `Witness.readLine_of_blank`, `Witness.readLine_of_assigns` or `Witness.readLine_of_offends`.
-/

namespace Circuit

open Circuit.Text

/-- A text consists of lines, with a line break between any two of them. -/
structure Text.HasLines (text : Text) (lines : List (List CodePoint)) : Prop where
  points : text.points = [CodePoint.scalar '\n'].intercalate lines
  nonempty : lines ≠ []
  unbroken : ∀ line ∈ lines, CodePoint.scalar '\n' ∉ line

def Text.IsWord (t : Text) : Prop := t.points ≠ [] ∧ ∀ p ∈ t.points, isBlankPoint p = false

instance (t : Text) : Decidable t.IsWord := inferInstanceAs (Decidable (_ ∧ _))

namespace Witness

/-! ### Lines of a text -/

/-- Lines are the pieces between line breaks. -/
theorem hasLines_splitLines (points : List CodePoint) : Text.HasLines ⟨points⟩ (splitLines points) := by
  induction points with
  | nil => exact ⟨rfl, List.cons_ne_nil _ _, by simp [splitLines]⟩
  | cons p points ih =>
      obtain ⟨whole, nonempty, unbroken⟩ := ih
      obtain ⟨line, rest, found⟩ := List.exists_cons_of_ne_nil nonempty
      rw [found] at whole unbroken
      rw [splitLines, found]
      by_cases broken : p = .scalar '\n'
      · rw [if_pos broken]
        refine ⟨?_, List.cons_ne_nil _ _, List.forall_mem_cons.2 ⟨List.not_mem_nil, unbroken⟩⟩
        rw [List.intercalate_cons_cons, ← whole, broken]
        rfl
      · obtain ⟨first, others⟩ := List.forall_mem_cons.1 unbroken
        have longer : CodePoint.scalar '\n' ∉ p :: line := by
          rw [List.mem_cons]
          exact fun member => member.elim (fun equal => broken equal.symm) first
        rw [if_neg broken]
        refine ⟨?_, List.cons_ne_nil _ _, List.forall_mem_cons.2 ⟨longer, others⟩⟩
        show p :: points = _
        have tail : points = [CodePoint.scalar '\n'].intercalate (line :: rest) := whole
        rw [tail]
        cases rest <;> rfl

/-- The lines that are found are the lines that the text consists of. -/
theorem splitLines_eq_iff {text : Text} {lines : List (List CodePoint)} :
    splitLines text.points = lines ↔ text.HasLines lines := by
  have found : text.HasLines (splitLines text.points) := hasLines_splitLines text.points
  constructor
  · rintro rfl
    exact found
  · intro h
    rw [← List.splitOn_intercalate _ h.unbroken h.nonempty, ← h.points, found.points,
      List.splitOn_intercalate _ found.unbroken found.nonempty, ← found.points]

theorem points_lines (texts : List Text) :
    (Text.lines texts).points = [CodePoint.scalar '\n'].intercalate (texts.map Text.points ++ [[]]) := by
  induction texts with
  | nil => rfl
  | cons t rest ih =>
      obtain ⟨line, others, tail⟩ : ∃ line others, rest.map Text.points ++ [[]] = line :: others :=
        List.exists_cons_of_ne_nil (by simp)
      show t.points ++ [CodePoint.scalar '\n'] ++ (Text.lines rest).points = _
      rw [ih, List.map_cons, List.cons_append, tail, List.intercalate_cons_cons]

/-- Where a line break ends each line, an empty line comes last. -/
theorem hasLines_lines {texts : List Text} (unbroken : ∀ t ∈ texts, CodePoint.scalar '\n' ∉ t.points) :
    (Text.lines texts).HasLines (texts.map Text.points ++ [[]]) where
  points := points_lines texts
  nonempty := by simp
  unbroken := List.forall_mem_append.2 ⟨List.forall_mem_map.2 unbroken, by simp⟩

/-! ### Kinds of lines -/

def Blank (line : List CodePoint) : Prop := ∀ p ∈ line, isBlankPoint p = true

instance (line : List CodePoint) : Decidable (Blank line) :=
  inferInstanceAs (Decidable (∀ p ∈ line, isBlankPoint p = true))

/-- A line of two words names the variable that its first word spells. -/
def Names (line : List CodePoint) (v : Variable) : Prop :=
  ∃ name value, Words isBlankPoint line [name, value] ∧ Variable.parse ⟨name⟩ = .ok v

/-- A line of two words assigns the value that the second word spells to the variable that the first one
spells. -/
def Assigns (F : Field) (line : List CodePoint) (v : Variable) (x : Int) : Prop :=
  ∃ name value, Words isBlankPoint line [name, value] ∧ Variable.parse ⟨name⟩ = .ok v ∧
    F.Spells (.str ⟨value⟩) x

/-- The fault of a line with a number, after lines that name the variables `Taken`. -/
inductive Offends (F : Field) (Taken : Variable → Prop) (number : Nat) (line : List CodePoint) : Fault → Prop
  /-- The line is not blank and does not have two words. -/
  | malformed : ¬ Blank line → (∀ name value, ¬ Words isBlankPoint line [name, value]) →
      Offends F Taken number line (.malformedLine number (quoted ⟨stripBy isBlankPoint line⟩))
  /-- The first word spells no variable. -/
  | name {name value : List CodePoint} {fault : Fault} :
      Words isBlankPoint line [name, value] → Variable.parse ⟨name⟩ = .error fault →
      Offends F Taken number line fault
  /-- The variable has been named. -/
  | repeated {v : Variable} : Names line v → Taken v →
      Offends F Taken number line (.repeatedVariable number v)
  /-- The second word spells no element. -/
  | value {name value : List CodePoint} {v : Variable} {fault : Fault} :
      Words isBlankPoint line [name, value] → Variable.parse ⟨name⟩ = .ok v → ¬ Taken v →
      F.parse ⟨value⟩ = .error fault → Offends F Taken number line fault

def entryLine (e : Text × Text) : Text := e.1 ++ " " ++ e.2

variable {F : Field} {line : List CodePoint} {v u : Variable} {x y : Int} {number : Nat}

theorem Assigns.names (h : Assigns F line v x) : Names line v :=
  let ⟨name, value, words, named, _⟩ := h
  ⟨name, value, words, named⟩

theorem not_blank_of_words {word : List CodePoint} {others : List (List CodePoint)}
    (words : Words isBlankPoint line (word :: others)) : ¬ Blank line := by
  intro blank
  have none_found : Words isBlankPoint line [] := Words.nil.append_blanks blank
  cases none_found.unique words

theorem Names.not_blank (h : Names line v) : ¬ Blank line :=
  let ⟨_, _, words, _⟩ := h
  not_blank_of_words words

theorem Names.unique (h : Names line v) (h' : Names line u) : v = u := by
  obtain ⟨name, value, words, named⟩ := h
  obtain ⟨name', value', words', named'⟩ := h'
  cases words.unique words'
  exact Except.ok.inj (named.symm.trans named')

theorem Assigns.unique (h : Assigns F line v x) (h' : Assigns F line u y) : v = u ∧ x = y := by
  refine ⟨h.names.unique h'.names, ?_⟩
  obtain ⟨name, value, words, -, spelled, -⟩ := h
  obtain ⟨name', value', words', -, spelled', -⟩ := h'
  cases words.unique words'
  exact Except.ok.inj (spelled.symm.trans spelled')

theorem Offends.kind {Taken : Variable → Prop} {fault : Fault} (h : Offends F Taken number line fault) :
    fault.kind = .value := by
  cases h with
  | malformed => rfl
  | name _ unread => exact Variable.kind_of_parse unread
  | repeated => rfl
  | value _ _ _ unread => exact Field.kind_of_parse unread

/-- A line that is in order by itself can only repeat a variable. -/
theorem Offends.repeats {Taken : Variable → Prop} {fault : Fault} (h : Offends F Taken number line fault)
    (in_order : Blank line ∨ ∃ v x, Assigns F line v x) : ∃ v, fault = .repeatedVariable number v := by
  cases h with
  | malformed some_word unpaired =>
    rcases in_order with blank | ⟨v, x, name, value, words, -⟩
    · exact absurd blank some_word
    · exact absurd words (unpaired name value)
  | name words unread =>
    rcases in_order with blank | ⟨v, x, name, value, words', named, -⟩
    · exact absurd blank (not_blank_of_words words)
    · cases words.unique words'
      cases unread.symm.trans named
  | repeated => exact ⟨_, rfl⟩
  | value words _ _ unread =>
    rcases in_order with blank | ⟨v, x, name, value, words', -, spelled⟩
    · exact absurd blank (not_blank_of_words words)
    · cases words.unique words'
      obtain ⟨e, parsed, -⟩ := Field.exists_read_iff.2 spelled
      cases unread.symm.trans parsed

/-- A line is one of three things. -/
theorem blank_or_assigns_or_offends (F : Field) (Taken : Variable → Prop) (number : Nat)
    (line : List CodePoint) :
    Blank line ∨ (∃ v x, Assigns F line v x ∧ ¬ Taken v) ∨ ∃ fault, Offends F Taken number line fault := by
  by_cases blank : Blank line
  · exact .inl blank
  refine .inr ?_
  by_cases pair : ∃ name value, Words isBlankPoint line [name, value]
  · obtain ⟨name, value, words⟩ := pair
    cases named : Variable.parse ⟨name⟩ with
    | error fault => exact .inr ⟨fault, .name words named⟩
    | ok v =>
      by_cases taken : Taken v
      · exact .inr ⟨_, .repeated ⟨name, value, words, named⟩ taken⟩
      · cases spelled : F.parse ⟨value⟩ with
        | error fault => exact .inr ⟨fault, .value words named taken spelled⟩
        | ok e =>
          exact .inl ⟨v, e.toInt, ⟨name, value, words, named, Field.exists_read_iff.1 ⟨e, spelled, rfl⟩⟩, taken⟩
  · exact .inr ⟨_, .malformed blank fun name value words => pair ⟨name, value, words⟩⟩

/-! ### Lines of a name and a value -/

theorem points_entryLine (e : Text × Text) :
    (entryLine e).points = e.1.points ++ .scalar ' ' :: e.2.points := by
  show e.1.points ++ [CodePoint.scalar ' '] ++ e.2.points = _
  rw [List.append_assoc]
  rfl

section Entry

variable {e : Text × Text} (name_word : e.1.IsWord) (value_word : e.2.IsWord)
include name_word value_word

theorem words_entryLine : Words isBlankPoint (entryLine e).points [e.1.points, e.2.points] := by
  rw [points_entryLine]
  exact .pair name_word.1 name_word.2 rfl value_word.1 value_word.2

/-- A line break would be a blank in one of the words. -/
theorem unbroken_entryLine : CodePoint.scalar '\n' ∉ (entryLine e).points := by
  rw [points_entryLine, List.mem_append, List.mem_cons]
  rintro (name | space | value)
  · cases name_word.2 _ name
  · cases space
  · cases value_word.2 _ value

theorem names_entryLine_iff : Names (entryLine e).points v ↔ Variable.parse e.1 = .ok v := by
  constructor
  · rintro ⟨name, value, words, named⟩
    cases words.unique (words_entryLine name_word value_word)
    exact named
  · intro named
    exact ⟨_, _, words_entryLine name_word value_word, named⟩

/-- The line of an entry assigns what its name and its value spell. -/
theorem assigns_entryLine_iff :
    Assigns F (entryLine e).points v x ↔ Variable.parse e.1 = .ok v ∧ F.Spells (.str e.2) x := by
  constructor
  · rintro ⟨name, value, words, gives⟩
    cases words.unique (words_entryLine name_word value_word)
    exact gives
  · intro gives
    exact ⟨_, _, words_entryLine name_word value_word, gives⟩

end Entry

/-! ### Reading one line -/

variable {w : Witness}

theorem readLine_of_blank (blank : Blank line) : readLine F number line w = .ok w := by
  unfold readLine
  simp only [stripBy_eq_nil_iff.2 blank, List.isEmpty_nil, if_true]

/-- The two words of a line are read one after the other. -/
theorem readLine_of_words {name value : List CodePoint} (words : Words isBlankPoint line [name, value]) :
    readLine F number line w =
      (Variable.parse ⟨name⟩).bind fun v =>
        if w.contains v then .error (.repeatedVariable number v)
        else (F.parse ⟨value⟩).map fun e => w.insert v e.toInt := by
  have found : wordsBy isBlankPoint (stripBy isBlankPoint line) = [name, value] :=
    wordsBy_eq_iff.2 (words_stripBy_iff.2 words)
  have remains : (stripBy isBlankPoint line).isEmpty = false := by
    rw [List.isEmpty_eq_false_iff]
    intro none_left
    rw [none_left] at found
    cases found
  unfold readLine
  simp only [remains, found, Bool.false_eq_true, if_false]
  cases Variable.parse ⟨name⟩ <;> rfl

theorem readLine_of_malformed (some_word : ¬ Blank line)
    (unpaired : ∀ name value, ¬ Words isBlankPoint line [name, value]) :
    readLine F number line w = .error (.malformedLine number (quoted ⟨stripBy isBlankPoint line⟩)) := by
  have remains : (stripBy isBlankPoint line).isEmpty = false :=
    List.isEmpty_eq_false_iff.2 fun none_left => some_word (stripBy_eq_nil_iff.1 none_left)
  unfold readLine
  simp only [remains, Bool.false_eq_true, if_false]
  split
  next name value found => exact absurd (words_stripBy_iff.1 (wordsBy_eq_iff.1 found)) (unpaired name value)
  next => rfl

theorem contains_eq_true_iff : w.contains v = true ↔ ∃ x, w.get? v = some x :=
  Option.isSome_iff_exists

theorem contains_eq_false_iff : w.contains v = false ↔ w.get? v = none :=
  Option.isSome_eq_false_iff.trans Option.isNone_iff_eq_none

theorem readLine_of_assigns (h : Assigns F line v x) (fresh : w.get? v = none) :
    readLine F number line w = .ok (w.insert v x) := by
  obtain ⟨name, value, words, named, spelled⟩ := h
  obtain ⟨e, parsed, rfl⟩ := Field.exists_read_iff.2 spelled
  have parsed : F.parse ⟨value⟩ = .ok e := parsed
  rw [readLine_of_words words, named]
  simp only [Except.bind, contains_eq_false_iff.2 fresh, parsed, Bool.false_eq_true, if_false]
  rfl

/-- Each way to offend has its fault. -/
theorem readLine_of_offends {Taken : Variable → Prop} (taken : ∀ v, Taken v ↔ ∃ x, w.get? v = some x)
    {fault : Fault} (h : Offends F Taken number line fault) : readLine F number line w = .error fault := by
  cases h with
  | malformed some_word unpaired => exact readLine_of_malformed some_word unpaired
  | name words unread =>
    rw [readLine_of_words words, unread]
    rfl
  | repeated names repeats =>
    obtain ⟨name, value, words, named⟩ := names
    rw [readLine_of_words words, named]
    simp only [Except.bind, contains_eq_true_iff.2 ((taken _).1 repeats), if_true]
  | value words named fresh unread =>
    have absent := contains_eq_true_iff.not.2 fun known => fresh ((taken _).2 known)
    rw [readLine_of_words words, named]
    simp only [Except.bind, absent, unread]
    rfl

end Witness

end Circuit

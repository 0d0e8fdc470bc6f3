import Circuit.Proofs.Witness.Lines

/-!
# Witness files

A witness file is accepted when each line is blank or assigns a value and no two lines name one variable, in
whatever spelling. It is then the witness of these values, so that neither the order of the lines nor blank
lines matter. Any other file has a first line that offends, and is refused for that line's fault.

* `Witness.WellFormed` and `Witness.FirstOffence` tell the two kinds of files apart:
  `Witness.wellFormed_or_firstOffence`.
* `Witness.readLines_of_wellFormed` and `Witness.readLines_of_firstOffence` read them.
* `Witness.read_eq_ok_iff` and `Witness.read_eq_error_iff` are what that comes to for a text.
* `Witness.read_of_sameContent`: neither order nor blank lines matter.
-/

namespace Circuit

open Circuit.Text

namespace Witness

/-- Each line is blank or assigns a value, and no two of them name one variable. -/
structure WellFormed (F : Field) (lines : List (List CodePoint)) : Prop where
  each : ∀ line ∈ lines, Blank line ∨ ∃ v x, Assigns F line v x
  single : lines.Pairwise fun line later => ∀ v, Names line v → ¬ Names later v

/-- Some line names the variable. -/
def NamedIn (lines : List (List CodePoint)) (v : Variable) : Prop := ∃ line ∈ lines, Names line v

/-- The fault of the first line that offends. Lines are counted from one. -/
def FirstOffence (F : Field) (lines : List (List CodePoint)) (fault : Fault) : Prop :=
  ∃ before line after, lines = before ++ line :: after ∧ WellFormed F before ∧
    Offends F (NamedIn before) (before.length + 1) line fault

/-- A witness gives the values that lines assign, and no others. -/
def GivenBy (F : Field) (lines : List (List CodePoint)) (w : Witness) : Prop :=
  ∀ v x, w.get? v = some x ↔ ∃ line ∈ lines, Assigns F line v x

variable {F : Field} {lines others : List (List CodePoint)} {line : List CodePoint} {w u : Witness}
  {v : Variable} {x : Int} {fault : Fault}

theorem wellFormed_nil : WellFormed F [] := ⟨List.forall_mem_nil _, .nil⟩

/-- What one more line has to be. -/
theorem wellFormed_concat_iff :
    WellFormed F (lines ++ [line]) ↔
      WellFormed F lines ∧ (Blank line ∨ ∃ v x, Assigns F line v x ∧ ¬ NamedIn lines v) := by
  constructor
  · intro ⟨each, single⟩
    obtain ⟨before_single, -, apart⟩ := List.pairwise_append.1 single
    obtain ⟨before_each, last⟩ := List.forall_mem_append.1 each
    refine ⟨⟨before_each, before_single⟩, (last line List.mem_cons_self).imp_right ?_⟩
    rintro ⟨v, x, assigns⟩
    exact ⟨v, x, assigns, fun ⟨earlier, member, names⟩ =>
      apart earlier member line List.mem_cons_self v names assigns.names⟩
  · rintro ⟨⟨each, single⟩, last⟩
    constructor
    · refine List.forall_mem_append.2 ⟨each, List.forall_mem_singleton.2 (last.imp_right ?_)⟩
      rintro ⟨v, x, assigns, -⟩
      exact ⟨v, x, assigns⟩
    · refine List.pairwise_append.2 ⟨single, List.pairwise_singleton _ _, fun earlier member => ?_⟩
      refine List.forall_mem_singleton.2 fun v names names_last => ?_
      rcases last with blank | ⟨u, x, assigns, fresh⟩
      · exact names_last.not_blank blank
      · exact fresh ⟨earlier, member, names_last.unique assigns.names ▸ names⟩

/-- The variables that well-formed lines name are those that they give values. -/
theorem namedIn_iff_get? (well_formed : WellFormed F lines) (given : GivenBy F lines w) :
    NamedIn lines v ↔ ∃ x, w.get? v = some x := by
  constructor
  · rintro ⟨line, member, names⟩
    rcases well_formed.each line member with blank | ⟨u, x, assigns⟩
    · exact absurd blank names.not_blank
    · cases assigns.names.unique names
      exact ⟨x, (given _ x).2 ⟨line, member, assigns⟩⟩
  · rintro ⟨x, found⟩
    obtain ⟨line, member, assigns⟩ := (given v x).1 found
    exact ⟨line, member, assigns.names⟩

theorem givenBy_concat_blank_iff (blank : Blank line) : GivenBy F (lines ++ [line]) w ↔ GivenBy F lines w := by
  have silent (v x) : ¬ Assigns F line v x := fun assigns => assigns.names.not_blank blank
  simp [GivenBy, or_and_right, exists_or, silent]

theorem wellFormed_concat_blank_iff (blank : Blank line) : WellFormed F (lines ++ [line]) ↔ WellFormed F lines :=
  wellFormed_concat_iff.trans (and_iff_left (.inl blank))

theorem GivenBy.concat_assigns (given : GivenBy F lines w) (assigns : Assigns F line v x)
    (fresh : w.get? v = none) : GivenBy F (lines ++ [line]) (w.insert v x) := by
  intro u y
  have last : Assigns F line u y ↔ u = v ∧ x = y :=
    ⟨fun h => ⟨h.unique assigns |>.1, assigns.unique h |>.2⟩, fun ⟨same, value⟩ => same ▸ value ▸ assigns⟩
  have before := given u y
  simp only [List.mem_append, List.mem_singleton, or_and_right, exists_or, exists_eq_left, last, ← before]
  rw [get?_insert]
  by_cases same : u = v
  · subst same
    simp [fresh]
  · simp [same]

/-- A row of lines in two parts, the second one from the witness of the first. -/
theorem readLines_append (number : Nat) (lines later : List (List CodePoint)) (w : Witness) :
    readLines F number (lines ++ later) w =
      (readLines F number lines w).bind (readLines F (number + lines.length) later) := by
  induction lines generalizing number w with
  | nil => rfl
  | cons line lines ih =>
      rw [List.cons_append, readLines, readLines]
      cases readLine F number line w with
      | error fault => rfl
      | ok u =>
          simp only [ih, List.length_cons]
          rw [Nat.add_assoc, Nat.add_comm 1]

/-- Well-formed lines are read as the witness of the values that they assign. -/
theorem readLines_of_wellFormed (well_formed : WellFormed F lines) :
    ∃ w, readLines F 1 lines empty = .ok w ∧ GivenBy F lines w := by
  -- From the last line: whether that one repeats a variable is told by the witness of the lines before it.
  induction lines using List.reverseRecOn with
  | nil => exact ⟨empty, rfl, fun v x => by simp [get?_empty]⟩
  | append_singleton lines line ih =>
      obtain ⟨before, last⟩ := wellFormed_concat_iff.1 well_formed
      obtain ⟨w, read, given⟩ := ih before
      rw [readLines_append, read]
      show ∃ u, readLines F (1 + lines.length) [line] w = .ok u ∧ _
      rcases last with blank | ⟨v, x, assigns, fresh⟩
      · refine ⟨w, ?_, (givenBy_concat_blank_iff blank).2 given⟩
        rw [readLines, readLine_of_blank blank]
        rfl
      · have absent : w.get? v = none := by
          rw [namedIn_iff_get? before given, not_exists] at fresh
          exact Option.eq_none_iff_forall_ne_some.2 fresh
        refine ⟨w.insert v x, ?_, given.concat_assigns assigns absent⟩
        rw [readLines, readLine_of_assigns assigns absent]
        rfl

/-- Lines are refused for the first one that offends. -/
theorem readLines_of_firstOffence (offence : FirstOffence F lines fault) :
    readLines F 1 lines empty = .error fault := by
  obtain ⟨before, line, after, rfl, well_formed, offends⟩ := offence
  obtain ⟨w, read, given⟩ := readLines_of_wellFormed well_formed
  have number : 1 + before.length = before.length + 1 := Nat.add_comm _ _
  have refused : readLine F (before.length + 1) line w = .error fault :=
    readLine_of_offends (fun v => namedIn_iff_get? well_formed given) offends
  rw [readLines_append, read]
  show readLines F (1 + before.length) (line :: after) w = _
  rw [number, readLines, refused]

/-- Lines are well-formed or have a first one that offends. -/
theorem wellFormed_or_firstOffence (F : Field) (lines : List (List CodePoint)) :
    WellFormed F lines ∨ ∃ fault, FirstOffence F lines fault := by
  induction lines using List.reverseRecOn with
  | nil => exact .inl wellFormed_nil
  | append_singleton lines line ih =>
      -- An earlier offence stays the first one; without it, the last line decides.
      rcases ih with well_formed | ⟨fault, before, offending, after, rfl, well_formed, offends⟩
      · rcases blank_or_assigns_or_offends F (NamedIn lines) (lines.length + 1) line with
          blank | assigns | ⟨fault, offends⟩
        · exact .inl (wellFormed_concat_iff.2 ⟨well_formed, .inl blank⟩)
        · exact .inl (wellFormed_concat_iff.2 ⟨well_formed, .inr assigns⟩)
        · exact .inr ⟨fault, lines, line, [], rfl, well_formed, offends⟩
      · exact .inr ⟨fault, before, offending, after ++ [line], by simp, well_formed, offends⟩

/-! ### Files -/

variable {text other : Text}

theorem read_of_hasLines (has_lines : text.HasLines lines) : read F text = readLines F 1 lines empty := by
  rw [read, splitLines_eq_iff.2 has_lines]

theorem exists_read_iff (has_lines : text.HasLines lines) :
    (∃ w, read F text = .ok w) ↔ WellFormed F lines := by
  rw [read_of_hasLines has_lines]
  constructor
  · rintro ⟨w, read⟩
    rcases wellFormed_or_firstOffence F lines with well_formed | ⟨fault, offence⟩
    · exact well_formed
    · cases (readLines_of_firstOffence offence).symm.trans read
  · intro well_formed
    obtain ⟨w, read, -⟩ := readLines_of_wellFormed well_formed
    exact ⟨w, read⟩

/-- The reader of witness files finds what the lines give, if they are well formed. -/
theorem read_eq_ok_iff (has_lines : text.HasLines lines) :
    read F text = .ok w ↔ WellFormed F lines ∧ GivenBy F lines w := by
  constructor
  · intro done
    have well_formed := (exists_read_iff has_lines).1 ⟨w, done⟩
    obtain ⟨u, read, given⟩ := readLines_of_wellFormed well_formed
    rw [read_of_hasLines has_lines, read] at done
    cases done
    exact ⟨well_formed, given⟩
  · rintro ⟨well_formed, given⟩
    obtain ⟨u, read, given'⟩ := readLines_of_wellFormed well_formed
    have same : u = w := ext_get? fun v x => (given' v x).trans (given v x).symm
    rw [read_of_hasLines has_lines, read, same]

/-- Otherwise it fails, as the first line that offends says. -/
theorem read_eq_error_iff (has_lines : text.HasLines lines) :
    read F text = .error fault ↔ FirstOffence F lines fault := by
  rw [read_of_hasLines has_lines]
  constructor
  · intro refused
    rcases wellFormed_or_firstOffence F lines with well_formed | ⟨fault', offence⟩
    · obtain ⟨w, read, -⟩ := readLines_of_wellFormed well_formed
      cases read.symm.trans refused
    · cases (readLines_of_firstOffence offence).symm.trans refused
      exact offence
  · exact readLines_of_firstOffence

theorem FirstOffence.kind (offence : FirstOffence F lines fault) : fault.kind = .value := by
  obtain ⟨_, _, _, _, _, offends⟩ := offence
  exact offends.kind

/-! ### Order and blank lines -/

/-- The lines that are not blank are the same, in any order. -/
def SameContent (lines others : List (List CodePoint)) : Prop :=
  (lines.filter fun line => ¬ Blank line).Perm (others.filter fun line => ¬ Blank line)

theorem SameContent.symm (same : SameContent lines others) : SameContent others lines :=
  List.Perm.symm same

theorem SameContent.mem (same : SameContent lines others) (member : line ∈ lines) (some_word : ¬ Blank line) :
    line ∈ others := by
  have kept : line ∈ lines.filter fun line => ¬ Blank line := List.mem_filter.2 ⟨member, by simpa⟩
  exact (List.mem_filter.1 (same.mem_iff.1 kept)).1

/-- Blank lines name nothing, so that they may be left out of a comparison of lines. -/
theorem single_filter_iff :
    ((lines.filter fun line => ¬ Blank line).Pairwise fun line later => ∀ v, Names line v → ¬ Names later v) ↔
      lines.Pairwise fun line later => ∀ v, Names line v → ¬ Names later v := by
  rw [List.pairwise_filter]
  constructor
  · intro apart
    exact apart.imp fun h v names names' => h (by simpa using names.not_blank) (by simpa using names'.not_blank)
      v names names'
  · intro apart
    exact apart.imp fun h _ _ => h

theorem SameContent.wellFormed (same : SameContent lines others) (well_formed : WellFormed F lines) :
    WellFormed F others where
  each line member := by
    by_cases blank : Blank line
    · exact .inl blank
    · exact well_formed.each line (same.symm.mem member blank)
  single := by
    have symmetric : ∀ {line later : List CodePoint}, (∀ v, Names line v → ¬ Names later v) →
        ∀ v, Names later v → ¬ Names line v := fun apart v names names' => apart v names' names
    exact single_filter_iff.1 ((same.pairwise_iff symmetric).1 (single_filter_iff.2 well_formed.single))

theorem SameContent.givenBy (same : SameContent lines others) (given : GivenBy F lines w) :
    GivenBy F others w := by
  intro v x
  rw [given v x]
  constructor
  · rintro ⟨line, member, assigns⟩
    exact ⟨line, same.mem member assigns.names.not_blank, assigns⟩
  · rintro ⟨line, member, assigns⟩
    exact ⟨line, same.symm.mem member assigns.names.not_blank, assigns⟩

/-- The order of lines and blank ones among them do not matter. -/
theorem read_of_sameContent (has_lines : text.HasLines lines) (has_others : other.HasLines others)
    (same : SameContent lines others) (done : read F text = .ok w) : read F other = .ok w := by
  obtain ⟨well_formed, given⟩ := (read_eq_ok_iff has_lines).1 done
  exact (read_eq_ok_iff has_others).2 ⟨same.wellFormed well_formed, same.givenBy given⟩

end Witness

end Circuit

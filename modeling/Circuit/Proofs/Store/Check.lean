import Circuit.Proofs.Program.Unassigned
import Circuit.Proofs.Statement.Shown
import Circuit.Proofs.Store.Requests
import Circuit.Proofs.Witness.Fields
import Circuit.Proofs.Witness.Missing

/-!
# Checking a sent witness

A witness that is sent for a stored program is looked at three times: for the public variables, for the variables
of the constraints, and for the values that a verifier is shown. The first look leaves nothing for the last one
to miss, so that which values are there decides the answer.

* `Program.verified` are the variables whose values a verifier is shown.
* `Program.unsatisfied_outcome` is the second look, `Program.exists_report` the report when nothing is missing.
* `Program.Verdict` lists the three answers, each under its own condition; `Program.check_verdict` and
  `Program.Verdict.unique`: one of them fits, and no other.
* `Store.check_decided`: that one is given, and the store stays as it was.
-/

namespace Circuit

open Witness

namespace Program

/-- The variables whose values a verifier is shown: of the parameters that are not private, in their order, and
behind them the first public slots, one for each returned value. -/
def verified (p : Program) : List Variable :=
  ((p.interface.parameters.filter fun q => q.isPrivate = false).map fun q => q.id) ++
    (List.range p.interface.returnCount.toNat).map fun k => .pub k

/-- The variables of the constraints of the top level, in the order in which they are visited. -/
def constraintVars (p : Program) : List Variable := p.constraints.flatMap Constraint.vars

/-- How a constraint that fails is reported: with its place, its text, and its tag if it has one. -/
inductive Reported : Nat × Constraint → Json → Prop
  | untagged {n : Nat} {c : Constraint} {text : Text} : c.tag = none → c.text = .ok text →
      Reported (n, c) (.obj [("index", .int n), ("constraint", .str text), ("error", .null)])
  | tagged {n : Nat} {c : Constraint} {text shown : Text} {tag : ErrorTag} : c.tag = some tag →
      c.text = .ok text → tag.text = .ok shown →
      Reported (n, c) (.obj [("index", .int n), ("constraint", .str text), ("error", .str shown)])

inductive Verdict (p : Program) (w : Witness) : Response → Prop
  /-- Some values for the verifier are missing: their variables are named, in the order of their texts. -/
  | unassigned {names : List String} :
      (∃ v ∈ p.verified, w.get? v = none) → names.Pairwise (· < ·) →
      (∀ name, name ∈ names ↔ ∃ v ∈ p.verified, w.get? v = none ∧ v.text = name) →
      Verdict p w (.json 400 (.obj [("error", .str ("공개 변수 값이 없습니다: " ++ String.intercalate ", " names))]))
  /-- Otherwise, a value for a constraint is missing: the first such variable is named. -/
  | missing {v : Variable} :
      (∀ u ∈ p.verified, ∃ x, w.get? u = some x) → w.FirstMissing p.constraintVars v →
      Verdict p w (.json 400 (.obj [("error", .str ("제약에 쓰인 변수 값이 없습니다: " ++ v.text))]))
  /-- Otherwise, the values for the verifier and the constraints that fail are reported. -/
  | checked {values : List Int} {failed : List (Nat × Constraint)} {rows : List Json} :
      (∀ v ∈ p.constraintVars, w.Covers v) → p.verified.map w.get? = values.map some →
      p.unsatisfied w Field.scalars = .ok failed → failed.Pairwise (fun f g => f.1 < g.1) →
      (∀ n c, (n, c) ∈ failed ↔ p.statements[n]? = some (.constraint c) ∧ ¬ c.Holds w.value Field.scalars) →
      List.Forall₂ Reported failed rows →
      Verdict p w (.json 200 (.obj [("public_inputs", .arr (values.map fun x => .str (Decimal.ofInt x))),
        ("unsatisfied", .arr rows)]))

variable {p : Program} {w : Witness} {F : Field}

theorem verified_eq (p : Program) : p.verified = p.interface.shown := by
  unfold verified Interface.shown Interface.publicParameters Interface.returns
  simp only [Bool.decide_eq_false]

/-- The coefficients of a program that was read are elements of the field that it was read over. -/
theorem modular_of_decode (short : F.modulus ≤ 10 ^ Decimal.digitLimit) {data : Json}
    (read : Program.decode F data = .ok p) : p.Modular F := by
  have again := decode_encode_of_decode short read
  intro c member a comb t here
  exact Element.modular_of_field (field_of_decode_encode again c member a comb t here)

/-- Only the constraints of the top level are visited. -/
theorem flatMap_visited (p : Program) : p.statements.flatMap Statement.visited = p.constraintVars := by
  unfold constraintVars constraints
  induction p.statements with
  | nil => rfl
  | cons s rest ih =>
    rw [List.flatMap_cons, ih]
    cases s <;> rfl

/-- All constraints of the top level are visited before anything is reported. -/
theorem unsatisfied_outcome (p : Program) (w : Witness) (F : Field) :
    p.unsatisfied w F =
      w.unlessMissing p.constraintVars (p.statements.zipIdx.filterMap (Statement.failure? w.value F)) := by
  rw [unsatisfied, unsatisfiedFrom_outcome, flatMap_visited]

/-! ### The report -/

theorem exists_reportFailed {c : Constraint} (tagged : ∀ tag ∈ c.tag, ∃ kind, tag.kind = .str kind) (n : Nat) :
    ∃ row, reportFailed (n, c) = .ok row ∧ Reported (n, c) row := by
  obtain ⟨text, found⟩ := (Statement.exists_text_constraint c).2 fun tag member _ => tagged tag member
  unfold reportFailed
  rw [found]
  cases tag : c.tag with
  | none => exact ⟨_, rfl, .untagged tag found⟩
  | some e =>
    obtain ⟨shown, tag_text⟩ := e.exists_text_iff.2 fun _ => tagged e tag
    simp only [tag_text]
    exact ⟨_, rfl, .tagged tag found tag_text⟩

/-- Nothing that a report needs is missing once the values are there and the tags have texts. -/
theorem exists_report {failed : List (Nat × Constraint)} (present : ∀ v ∈ p.verified, ∃ x, w.get? v = some x)
    (tagged : ∀ f ∈ failed, ∀ tag ∈ f.2.tag, ∃ kind, tag.kind = .str kind) :
    ∃ (values : List Int) (rows : List Json), p.verified.map w.get? = values.map some ∧
      List.Forall₂ Reported failed rows ∧
      p.report w failed = .ok (.obj [("public_inputs", .arr (values.map fun x => .str (Decimal.ofInt x))),
        ("unsatisfied", .arr rows)]) := by
  rw [verified_eq] at present ⊢
  have each : ∀ f ∈ failed, ∃ row, reportFailed f = .ok row ∧ Reported f row := fun f member =>
    exists_reportFailed (tagged f member) f.1
  have : Nonempty Json := ⟨.null⟩
  choose! row done reported using each
  have none_missing : ¬ ∃ v ∈ p.interface.shown, w.get? v = none := by
    rintro ⟨v, member, missing⟩
    obtain ⟨x, found⟩ := present v member
    cases found.symm.trans missing
  obtain ⟨values, shown⟩ := Interface.exists_publicValuesOf none_missing
  have public_values : p.interface.publicValues w = .ok values := shown
  refine ⟨values, failed.map row, Interface.publicValuesOf_eq_ok_iff.1 shown, ?_, ?_⟩
  · exact List.forall₂_map_right_iff.2 (List.forall₂_same.2 reported)
  · unfold report
    rw [Except.mapM_eq_ok_map done, public_values]
    rfl

/-! ### The answer -/

/-- Which values are there decides the answer. -/
theorem check_verdict (modular : p.Modular Field.scalars)
    (tagged : ∀ c ∈ p.constraints, ∀ tag ∈ c.tag, ∃ kind, tag.kind = .str kind) (w : Witness) :
    Verdict p w (p.check w) := by
  have verified := p.verified_eq
  cases lacking : p.unassigned w with
  | cons v others =>
    have answer : p.check w = (Refusal.unassigned (p.namesOfUnassigned w)).response := by
      unfold check namesOfUnassigned
      rw [lacking]
    have missing : v ∈ p.unassigned w := lacking ▸ List.mem_cons_self
    rw [answer]
    exact .unassigned ⟨v, verified ▸ mem_unassigned_iff.1 missing⟩ (p.ascending_namesOfUnassigned w)
      fun name => verified ▸ mem_namesOfUnassigned_iff
  | nil =>
    have present : ∀ v ∈ p.verified, ∃ x, w.get? v = some x := verified ▸ unassigned_eq_nil_iff.1 lacking
    cases outcome : p.unsatisfied w Field.scalars with
    | error fault =>
      obtain ⟨v, first, rfl⟩ := unlessMissing_eq_error_iff.1 ((p.unsatisfied_outcome w _).symm.trans outcome)
      have answer : p.check w = (Refusal.missingValue v).response := by
        unfold check
        rw [lacking, outcome]
      rw [answer]
      exact .missing present first
    | ok failed =>
      obtain ⟨covered, listed⟩ := unlessMissing_eq_ok_iff.1 ((p.unsatisfied_outcome w _).symm.trans outcome)
      have entries (n c) : (n, c) ∈ failed ↔
          p.statements[n]? = some (.constraint c) ∧ ¬ c.Holds w.value Field.scalars := by
        rw [← listed, Statement.mem_failures_iff]
        refine and_congr_right fun here => not_congr (c.holdsIn_iff (modular c ?_) w.value)
        exact List.mem_filterMap.2 ⟨_, List.mem_of_getElem? here, rfl⟩
      have failed_tagged : ∀ f ∈ failed, ∀ tag ∈ f.2.tag, ∃ kind, tag.kind = .str kind := by
        rintro ⟨n, c⟩ member
        have here := List.mem_of_getElem? ((entries n c).1 member).1
        exact tagged c (List.mem_filterMap.2 ⟨_, here, rfl⟩)
      obtain ⟨values, rows, shown, reported, report⟩ := exists_report present failed_tagged
      have answer : p.check w = .ofOutcome (.json 200) (p.report w failed) := by
        unfold check
        rw [lacking, outcome]
      rw [answer, report]
      exact .checked covered shown outcome (listed ▸ Statement.failures_ascending _ _ _) entries reported

/-- A constraint that fails has one report. -/
theorem rightUnique_reported : Relator.RightUnique Reported := by
  intro f row row' h h'
  cases h with
  | untagged untagged text =>
    cases h' with
    | untagged _ text' =>
      cases text.symm.trans text'
      rfl
    | tagged tagged _ _ => cases untagged.symm.trans tagged
  | tagged tagged text shown =>
    cases h' with
    | untagged untagged _ => cases untagged.symm.trans tagged
    | tagged tagged' text' shown' =>
      cases text.symm.trans text'
      cases tagged.symm.trans tagged'
      cases shown.symm.trans shown'
      rfl

/-- A row of values for a row of variables leaves none of them without a value. -/
theorem exists_of_map_get? {vs : List Variable} {values : List Int} (shown : vs.map w.get? = values.map some) :
    ∀ v ∈ vs, ∃ x, w.get? v = some x := by
  intro v member
  have found : w.get? v ∈ values.map some := shown ▸ List.mem_map_of_mem member
  obtain ⟨x, -, same⟩ := List.mem_map.1 found
  exact ⟨x, same.symm⟩

/-- No two answers fit: their conditions exclude each other, and each leaves no choice. -/
theorem Verdict.unique {r r' : Response} (h : Verdict p w r) (h' : Verdict p w r') : r = r' := by
  have apart {P : Prop} (lacking : ∃ v ∈ p.verified, w.get? v = none)
      (present : ∀ v ∈ p.verified, ∃ x, w.get? v = some x) : P := by
    obtain ⟨v, member, missing⟩ := lacking
    obtain ⟨x, found⟩ := present v member
    cases missing.symm.trans found
  have apart' {P : Prop} {v : Variable} (first : w.FirstMissing p.constraintVars v)
      (covered : ∀ u ∈ p.constraintVars, w.Covers u) : P := by
    obtain ⟨before, after, split, -, missing⟩ := first
    exact absurd (covered v (split ▸ List.mem_append_cons_self)) missing
  cases h with
  | unassigned lacking ascending names_iff =>
    cases h' with
    | unassigned _ ascending' names_iff' =>
      rw [ascending.eq_of_mem_iff ascending' fun name => (names_iff name).trans (names_iff' name).symm]
    | missing present _ => exact apart lacking present
    | checked _ shown _ _ _ _ => exact apart lacking (exists_of_map_get? shown)
  | missing present first =>
    cases h' with
    | unassigned lacking _ _ => exact apart lacking present
    | missing _ first' =>
      cases (firstMissing?_eq_some_iff.2 first).symm.trans (firstMissing?_eq_some_iff.2 first')
      rfl
    | checked covered _ _ _ _ _ => exact apart' first covered
  | checked covered shown outcome _ _ reported =>
    cases h' with
    | unassigned lacking _ _ => exact apart lacking (exists_of_map_get? shown)
    | missing _ first => exact apart' first covered
    | checked _ shown' outcome' _ _ reported' =>
      cases outcome.symm.trans outcome'
      have values := List.map_injective_iff.2 (Option.some_injective Int) (shown.symm.trans shown')
      have rows := List.right_unique_forall₂' rightUnique_reported reported reported'
      rw [values, rows]

end Program

namespace Store

/-- An object of which every field can be read is checked against a stored program without blocks whose tags
have texts for kinds. Which values the witness has that the object spells decides the answer, and the store is
left alone. -/
theorem check_decided (s : Store) {name : String} {body : Body} {p : Program} {fields : List (Text × Json)}
    (stored : s.load name = some (.ok p)) (flat : p.hasBlocks = false)
    (tagged : ∀ c ∈ p.constraints, ∀ tag ∈ c.tag, ∃ kind, tag.kind = .str kind)
    (sent : body.fields? = some fields) (each : ∀ f ∈ fields, ∃ v x, Witness.Gives Field.scalars f v x) :
    ∃ w response, Witness.decode Field.scalars (.obj fields) = .ok w ∧
      (∀ v x, w.get? v = some x ↔ Witness.LastGiven Field.scalars fields v x) ∧
      s.handle (.check name body) = (s, response) ∧ ∀ r, p.Verdict w r ↔ r = response := by
  obtain ⟨w, read, values⟩ := Witness.exists_decode each
  obtain ⟨data, -, decoded⟩ := Option.map_eq_some_iff.1 stored
  have verdict := p.check_verdict (Program.modular_of_decode Field.short_scalars decoded) tagged w
  refine ⟨w, p.check w, read, values, ?_, fun r => ⟨fun other => other.unique verdict, fun same => same ▸ verdict⟩⟩
  have answer : checkResponse name body p = p.check w := by
    unfold checkResponse
    simp only [flat, sent, read, Bool.false_eq_true, if_false]
  rw [handle, withProgram_of_load stored, answer]

/-- What is sent for the nested program without its blocks: both public values and that of its constraint. -/
def sentForNested : List (Text × Json) := [("~out_01", .int 7), ("~out_0", .bool true), ("_1", .str "+1")]

theorem gives_sentForNested : ∀ f ∈ sentForNested, ∃ v x, Gives Field.scalars f v x := by
  refine List.forall_mem_cons.2 ⟨⟨.pub 1, 7, ?_⟩, List.forall_mem_cons.2
    ⟨⟨.pub 0, 1, ?_⟩, List.forall_mem_singleton.2 ⟨.loc 1 Nat.one_pos, 1, ?_⟩⟩⟩ <;>
  exact decodeEntry_eq_ok_iff.1 rfl

theorem tagged_nestedStored :
    ∀ c ∈ nestedStored.clean.constraints, ∀ tag ∈ c.tag, ∃ kind, tag.kind = .str kind := by
  refine List.forall_mem_singleton.2 fun tag member => ?_
  cases member
  exact ⟨_, rfl⟩

/-- The first values of what is sent for the nested program: none at all, both public ones, and all three. -/
theorem check_decided_nested :
    let s := Store.empty.put "nested" nestedStored.clean.encode
    let p := nestedStored.clean
    s.load "nested" = some (.ok p) ∧ p.hasBlocks = false ∧
      s.handle (.check "nested" (.json (.obj []))) =
        (s, .json 400 (.obj [("error", .str "공개 변수 값이 없습니다: ~out_0, ~out_1")])) ∧
      s.handle (.check "nested" (.json (.obj (sentForNested.take 2)))) =
        (s, .json 400 (.obj [("error", .str "제약에 쓰인 변수 값이 없습니다: _1")])) ∧
      ∃ w response, Witness.decode Field.scalars (.obj sentForNested) = .ok w ∧ w.get? (.pub 1) = some 7 ∧
        s.handle (.check "nested" (.json (.obj sentForNested))) = (s, response) ∧ p.Verdict w response ∧
        response.status = 200 := by
  intro s p
  have stored : s.load "nested" = some (.ok p) := congrArg some (Program.decode_encode_clean read_nestedStored)
  have decided (fields : List (Text × Json)) (each : ∀ f ∈ fields, ∃ v x, Gives Field.scalars f v x) :=
    check_decided s stored nestedStored.hasBlocks_clean tagged_nestedStored
      (show (Body.json (.obj fields)).fields? = some fields from rfl) each
  refine ⟨stored, nestedStored.hasBlocks_clean, ?_, ?_, ?_⟩
  · obtain ⟨w, response, read, -, answered, verdict⟩ := decided [] (List.forall_mem_nil _)
    cases read
    have names : ∀ name, name ∈ ["~out_0", "~out_1"] ↔
        ∃ v ∈ p.verified, Witness.empty.get? v = none ∧ v.text = name := by
      have verified : p.verified = [.pub 1, .pub 0] := rfl
      have missing : ∀ v, Witness.empty.get? v = none := fun _ => rfl
      have texts : Variable.text (.pub 1) = "~out_1" ∧ Variable.text (.pub 0) = "~out_0" := ⟨rfl, rfl⟩
      intro name
      simp [verified, missing, texts, eq_comm, or_comm]
    have lacking : ∃ v ∈ p.verified, Witness.empty.get? v = none := ⟨.pub 1, List.mem_cons_self, rfl⟩
    rw [answered, ← (verdict _).1 (.unassigned lacking (by decide) names)]
    rfl
  · obtain ⟨w, response, read, -, answered, verdict⟩ :=
      decided (sentForNested.take 2) fun f member => gives_sentForNested f (List.mem_of_mem_take member)
    have present : ∀ v ∈ p.verified, ∃ x, w.get? v = some x := by
      cases read
      exact List.forall_mem_cons.2 ⟨⟨7, rfl⟩, List.forall_mem_singleton.2 ⟨1, rfl⟩⟩
    have first : w.FirstMissing p.constraintVars (.loc 1 Nat.one_pos) := by
      cases read
      exact firstMissing?_eq_some_iff.1 rfl
    rw [answered, ← (verdict _).1 (.missing present first)]
    rfl
  · obtain ⟨w, response, read, values, answered, verdict⟩ := decided sentForNested gives_sentForNested
    refine ⟨w, response, read, ?_, answered, (verdict _).2 rfl, ?_⟩
    · exact (values _ _).2 ⟨[], _, _, rfl, decodeEntry_eq_ok_iff.1 rfl, by decide⟩
    · exact (congrArg (fun answer => answer.2.status) answered).symm.trans rfl

end Store

end Circuit

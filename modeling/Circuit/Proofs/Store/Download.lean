import Circuit.Proofs.R1cs.WireSpace
import Circuit.Proofs.Store.Requests

/-!
# Downloading a stored program

A program that was saved is downloaded as the file of the program without its blocks, whatever other
requests come between, provided that its own blocks were taken apart and that its name fits the line
that names the file.

* `Store.load_run_of_stored`: what is loaded after requests that leave a name to itself.
* `Store.run_download` compares a download with the file of the saved program.
* `Store.download_complete_iff`: a stored program without blocks is downloaded as a complete file if its
  numbers have room in it, and for no other reason is it not.
-/

namespace Circuit

/-- Whether a request puts another program in the place of that of a name, or takes it away. -/
def Request.Replaces (name : String) : Request → Prop
  | .save other _ => other = name
  | .delete other => other = name
  | _ => False

/-- A body with the stored form of a program is taken as the program. -/
theorem Body.program?_encode {p : Program} {sizing : R1cs.Sizing}
    (read : Program.decode Field.scalars p.encode = .ok p) (found : p.checkWires = .ok sizing) :
    (Body.json p.encode).program? = some p :=
  program?_eq_some_iff.2 ⟨_, rfl, read, sizing, found⟩

/-! ### Files of stored programs -/

namespace Program.StoredAs

open R1cs

variable {p : Program} {data : Json} (stored : p.StoredAs data)

include stored

/-- The coefficients of a stored program are scalars, and the width of a field holds its elements. -/
theorem coefficientsFit : CoefficientsFit Field.scalars p.constraints := by
  have read : Program.decode Field.scalars p.encode = .ok p := by
    rw [stored.written]
    exact stored.read
  intro t member
  obtain ⟨c, c_member, t_member⟩ := List.mem_flatMap.1 member
  obtain ⟨a, a_member, t_member⟩ := List.mem_flatMap.1 t_member
  have scalar := Program.field_of_decode_encode read c c_member a a_member t t_member
  calc
    t.coeff.value < t.coeff.field.modulus := t.coeff.reduced
    _ = Field.scalars.modulus := congrArg (·.modulus) scalar
    _ < 256 ^ Field.scalars.byteWidth := Field.scalars.modulus_lt_capacity

/-- Stored programs have wires for all variables, since they were checked before they were kept. -/
theorem allInside : AllInside p.interface.publicCount p.constraints := by
  obtain ⟨sizing, found⟩ := stored.wires
  exact allInside_of_checkWires found

/-- The numbers that are no coefficients decide whether a stored program has a file. -/
theorem fileBytes_of_hasRoom (room : HasRoom Field.scalars p.interface p.constraints) :
    ∃ bytes, fileBytes Field.scalars p = .ok bytes ∧
      File.read bytes = .ok (File.ofConstraints Field.scalars p.interface p.constraints) := by
  let file := File.ofConstraints Field.scalars p.interface p.constraints
  have fits : file.Fits :=
    (File.fits_ofConstraints _ _ _ stored.allInside).2 ⟨stored.coefficientsFit, room⟩
  refine ⟨file.bytes, ?_, File.read_bytes file fits (File.consistent_ofConstraints _ _ _)⟩
  exact (finished_exportConstraints _ _ _ _).2 ⟨stored.allInside, fits, rfl⟩

/-- For want of room the file is refused as a whole. -/
theorem fileBytes_of_crowded (crowded : ¬ HasRoom Field.scalars p.interface p.constraints) :
    fileBytes Field.scalars p = .error .wordOverflow := by
  unfold fileBytes Run.finished
  cases ended : (exportProgram Field.scalars p).outcome with
  | ok done => exact absurd ((outcome_eq_ok_iff _ p).1 ended).2.2 crowded
  | error fault =>
      cases writeFault_of_outcome _ p stored.allInside fault ended with
      | noRoom _ => rfl
      | tooWide t member wide => exact absurd (stored.coefficientsFit t member) (Nat.not_lt.2 wide)

end Program.StoredAs

namespace Store

/-! ### What becomes of a saved program -/

theorem load_of_get? {s : Store} {p : Program} {data : Json} {name : String}
    (row : s.get? name = some data) (stored : p.StoredAs data) : s.load name = some (.ok p) := by
  unfold load
  rw [row, Option.map_some, stored.read]

/-- A stored program stays the one that it is, but for its blocks, as long as nothing takes its place.
It loses its blocks with the first request to clean it. -/
theorem load_run_of_stored {s : Store} {p : Program} {data : Json} {name : String}
    (row : s.get? name = some data) (stored : p.StoredAs data) (requests : List Request)
    (kept : ∀ request ∈ requests, ¬ request.Replaces name) :
    (.clean name ∉ requests ∧ (s.run requests).1.load name = some (.ok p)) ∨
      (.clean name ∈ requests ∧ (s.run requests).1.load name = some (.ok p.clean)) := by
  induction requests generalizing s p data with
  | nil => exact .inl ⟨List.not_mem_nil, load_of_get? row stored⟩
  | cons request rest ih =>
      obtain ⟨here, later⟩ := List.forall_mem_cons.1 kept
      by_cases cleans : request = .clean name
      · subst cleans
        have cleaned : (s.handle (.clean name)).1.get? name = some p.clean.encode := by
          rw [handle_clean s name (load_of_get? row stored), get?_put, if_pos rfl]
        right
        refine ⟨List.mem_cons_self, ?_⟩
        rcases ih cleaned stored.clean later with ⟨-, loaded⟩ | ⟨-, loaded⟩
        · exact loaded
        · rw [p.clean_clean] at loaded
          exact loaded
      · have untouched : ¬ request.Writes name := by
          cases request with
          | clean other => exact fun equal => cleans (congrArg Request.clean equal)
          | save other body => exact here
          | delete other => exact here
          | _ => exact id
        have same : (s.handle request).1.get? name = some data :=
          (get?_handle s request untouched).trans row
        have other : Request.clean name ∈ request :: rest ↔ Request.clean name ∈ rest := by
          rw [List.mem_cons, or_iff_right (Ne.symm cleans)]
        rw [other]
        exact ih same stored later

/-! ### Downloads -/

/-- A stored program answers a download with its file, or with a refusal. -/
theorem handle_download {s : Store} {p : Program} {name : String}
    (loaded : s.load name = some (.ok p)) :
    (s.handle (.download name)).2 = downloadResponse name p :=
  congrArg Prod.snd (withProgram_of_load loaded)

theorem fitsLine_file (name : String) :
    Response.fitsLine (name ++ ".r1cs") = Response.fitsLine name := by
  unfold Response.fitsLine
  rw [String.toList_append, List.all_append]
  exact Bool.and_true _

theorem downloadResponse_of_written {name : String} {p : Program} {bytes : Bytes}
    (flat : p.hasBlocks = false) (written : R1cs.fileBytes Field.scalars p = .ok bytes) :
    downloadResponse name p =
      if Response.fitsLine name then .download (name ++ ".r1cs") bytes else .broken := by
  simp [downloadResponse, flat, written, fitsLine_file]

theorem downloadResponse_of_failed {name : String} {p : Program} {fault : Fault}
    (flat : p.hasBlocks = false) (failed : R1cs.fileBytes Field.scalars p = .error fault) :
    downloadResponse name p = .broken := by
  simp [downloadResponse, flat, failed]

theorem status_downloadResponse (name : String) (p : Program) :
    (downloadResponse name p).status = 409 ↔ p.hasBlocks = true := by
  cases blocks : p.hasBlocks with
  | true => simp [downloadResponse, blocks, Refusal.response, Refusal.status, Response.status]
  | false =>
      cases file : R1cs.fileBytes Field.scalars p with
      | error fault => simp [downloadResponse_of_failed blocks file, Response.status]
      | ok bytes =>
          rw [downloadResponse_of_written blocks file]
          cases Response.fitsLine name <;> simp [Response.status]

/-- After a save that is taken, and requests that neither save nor delete under the name, a download is
refused for blocks exactly if the program has some and was never cleaned. Otherwise it brings the file
of the program without its blocks, wherever there is one and a line can name it. -/
theorem run_download (s : Store) (name : String) (body : Body) (p : Program)
    (taken : body.program? = some p) (requests : List Request)
    (kept : ∀ request ∈ requests, ¬ request.Replaces name) :
    let after := ((s.handle (.save name body)).1.run requests).1
    let answer := (after.handle (.download name)).2
    (answer.status = 409 ↔ p.hasBlocks = true ∧ .clean name ∉ requests) ∧
      (¬ (p.hasBlocks = true ∧ .clean name ∉ requests) →
        ∀ bytes, R1cs.fileBytes Field.scalars p.clean = .ok bytes →
          answer = if Response.fitsLine name then .download (name ++ ".r1cs") bytes
            else .broken) := by
  intro after answer
  have stored := Body.storedAs_of_program? taken
  have row : (s.handle (.save name body)).1.get? name = some p.encode := by
    show (s.save name body).1.get? name = some p.encode
    rw [save_of_program s name taken]
    exact (get?_put s name name p.encode).trans (if_pos rfl)
  rcases load_run_of_stored row stored requests kept with ⟨uncleaned, loaded⟩ | ⟨cleaned, loaded⟩
  · have answered : answer = downloadResponse name p := handle_download loaded
    rw [answered, status_downloadResponse]
    refine ⟨⟨fun blocks => ⟨blocks, uncleaned⟩, And.left⟩, fun flat bytes written => ?_⟩
    have no_blocks : p.hasBlocks = false :=
      Bool.eq_false_iff.2 fun blocks => flat ⟨blocks, uncleaned⟩
    rw [Program.clean_eq_self no_blocks] at written
    exact downloadResponse_of_written no_blocks written
  · have answered : answer = downloadResponse name p.clean := handle_download loaded
    rw [answered, status_downloadResponse, p.hasBlocks_clean]
    refine ⟨⟨nofun, fun refused => absurd cleaned refused.2⟩, fun _ bytes written => ?_⟩
    exact downloadResponse_of_written p.hasBlocks_clean written

/-- The program with blocks inside blocks has a file once they are gone. -/
theorem hasRoom_nestedStored :
    R1cs.HasRoom Field.scalars nestedStored.clean.interface nestedStored.clean.constraints where
  terms := by decide
  wires := by
    intro t member n has_wire
    obtain ⟨-, rfl⟩ := (Variable.wire_eq_ok _ _ _).1 has_wire
    have below : ∀ t ∈ nestedStored.clean.constraints.flatMap R1cs.termsOf,
        t.var.wireNumber 2 < 2 ^ 32 := by decide
    exact below t member
  fieldSize := by decide
  wireCount := by decide
  returnCount := by decide
  publicParameters := by decide
  privateParameters := by decide
  constraintCount := by decide
  constraintSize := by decide

theorem storedAs_nestedStored : nestedStored.StoredAs nestedStored.encode :=
  ⟨read_nestedStored, rfl, wires_nestedStored⟩

/-- The nested program is refused before it is cleaned, and downloaded after it was cleaned twice. -/
theorem run_download_nested :
    let saved := (Store.empty.handle (.save "nested" (.json nestedStored.encode))).1
    (((saved.run [.list]).1.handle (.download "nested")).2.status = 409) ∧
    ∃ bytes, R1cs.fileBytes Field.scalars nestedStored.clean = .ok bytes ∧
      ((saved.run [.clean "nested", .list, .clean "nested"]).1.handle (.download "nested")).2 =
        .download "nested.r1cs" bytes := by
  obtain ⟨sizing, found⟩ := wires_nestedStored
  have taken := Body.program?_encode read_nestedStored found
  obtain ⟨bytes, written, -⟩ := storedAs_nestedStored.clean.fileBytes_of_hasRoom hasRoom_nestedStored
  have before := run_download Store.empty "nested" _ _ taken [.list]
    (List.forall_mem_singleton.2 id)
  have after := run_download Store.empty "nested" _ _ taken [.clean "nested", .list, .clean "nested"]
    (List.forall_mem_cons.2 ⟨id, List.forall_mem_cons.2 ⟨id, List.forall_mem_singleton.2 id⟩⟩)
  have uncleaned : Request.clean "nested" ∉ [Request.list] := fun member =>
    nomatch List.mem_singleton.1 member
  refine ⟨before.1.2 ⟨rfl, uncleaned⟩, bytes, written, ?_⟩
  exact after.2 (fun refused => refused.2 List.mem_cons_self) bytes written

/-- The program of nothing at all. -/
def bareProgram : Program := ⟨⟨[], .number 0⟩, []⟩

theorem storedAs_bareProgram : bareProgram.StoredAs bareProgram.encode :=
  ⟨rfl, rfl, _, rfl⟩

theorem hasRoom_bareProgram :
    R1cs.HasRoom Field.scalars bareProgram.interface bareProgram.constraints where
  terms := fun _ member => absurd member List.not_mem_nil
  wires := fun _ member => absurd member List.not_mem_nil
  fieldSize := by decide
  wireCount := by decide
  returnCount := by decide
  publicParameters := by decide
  privateParameters := by decide
  constraintCount := by decide
  constraintSize := by decide

/-- No line names the file of a program whose name breaks the line, so that the program is saved and
has a file, and the download breaks off. -/
theorem download_lineBreak :
    (Body.json (.obj [])).program? = some bareProgram ∧ bareProgram.hasBlocks = false ∧
    (∃ bytes, R1cs.fileBytes Field.scalars bareProgram.clean = .ok bytes) ∧
    ((Store.empty.handle (.save "a\nb" (.json (.obj [])))).1.handle (.download "a\nb")).2 =
      .broken := by
  obtain ⟨bytes, written, -⟩ := storedAs_bareProgram.fileBytes_of_hasRoom hasRoom_bareProgram
  refine ⟨rfl, rfl, ⟨bytes, written⟩, ?_⟩
  have loaded : (Store.empty.handle (.save "a\nb" (.json (.obj [])))).1.load "a\nb" =
      some (.ok bareProgram) := rfl
  rw [handle_download loaded, downloadResponse_of_written rfl written]
  rfl

/-- A stored program without blocks, under a name that a line can hold, is downloaded as a complete
file exactly if its numbers have room in the file. If they have not, the file breaks off at a number: no
stored program contradicts itself, or has a coefficient that is too wide. -/
theorem download_complete_iff (requests : List Request) (name : String) (p : Program)
    (loaded : (Store.empty.run requests).1.load name = some (.ok p)) (flat : p.hasBlocks = false)
    (line : Response.fitsLine name = true) :
    let answer := ((Store.empty.run requests).1.handle (.download name)).2
    (answer.status = 200 ↔ R1cs.HasRoom Field.scalars p.interface p.constraints) ∧
      (answer.status = 200 → ∃ bytes, answer = .download (name ++ ".r1cs") bytes ∧
        R1cs.fileBytes Field.scalars p = .ok bytes ∧ R1cs.File.read bytes =
          .ok (R1cs.File.ofConstraints Field.scalars p.interface p.constraints)) ∧
      (answer.status ≠ 200 →
        answer = .broken ∧ R1cs.fileBytes Field.scalars p = .error .wordOverflow) := by
  intro answer
  have answered : answer = downloadResponse name p := handle_download loaded
  obtain ⟨q, data, same, stored⟩ := (run_sound empty_sound requests).load loaded
  obtain rfl : p = q := Except.ok.inj same
  by_cases room : R1cs.HasRoom Field.scalars p.interface p.constraints
  · obtain ⟨bytes, written, read⟩ := stored.fileBytes_of_hasRoom room
    have download : answer = .download (name ++ ".r1cs") bytes := by
      rw [answered, downloadResponse_of_written flat written, if_pos line]
    have success : answer.status = 200 := congrArg Response.status download
    exact ⟨iff_of_true success room, fun _ => ⟨bytes, download, written, read⟩,
      fun failure => absurd success failure⟩
  · have failed := stored.fileBytes_of_crowded room
    have broken : answer = .broken := answered.trans (downloadResponse_of_failed flat failed)
    have failure : answer.status ≠ 200 := by
      rw [broken]
      exact nofun
    exact ⟨iff_of_false failure room, fun success => absurd success failure,
      fun _ => ⟨broken, failed⟩⟩

/-- Cleaned, the nested program is downloaded as a complete file. -/
theorem download_complete_iff_nested :
    let s := (Store.empty.run [.save "nested" (.json nestedStored.encode), .clean "nested"]).1
    s.load "nested" = some (.ok nestedStored.clean) ∧
    ∃ bytes, (s.handle (.download "nested")).2 = .download "nested.r1cs" bytes ∧
      R1cs.File.read bytes = .ok (R1cs.File.ofConstraints Field.scalars
        nestedStored.clean.interface nestedStored.clean.constraints) := by
  obtain ⟨sizing, found⟩ := wires_nestedStored
  have row : (Store.empty.put "nested" nestedStored.encode).get? "nested" =
      some nestedStored.encode := rfl
  have loaded : (Store.empty.run [.save "nested" (.json nestedStored.encode), .clean "nested"]).1.load
      "nested" = some (.ok nestedStored.clean) := by
    have saved := handle_save_encode Store.empty "nested" read_nestedStored found
    have cleaned := handle_clean _ "nested" (load_of_get? row storedAs_nestedStored)
    simp only [run, saved, cleaned]
    exact load_of_get? rfl storedAs_nestedStored.clean
  obtain ⟨success, file, -⟩ := download_complete_iff _ "nested" nestedStored.clean loaded
    nestedStored.hasBlocks_clean rfl
  obtain ⟨bytes, download, -, read⟩ := file (success.2 hasRoom_nestedStored)
  exact ⟨loaded, bytes, download, read⟩

/-- The constraint on a single local variable is a stored program, however large the number of the
variable is. -/
theorem storedAs_lone (id : Nat) (positive : 0 < id) (short : Decimal.isWritable id = true) :
    (R1cs.loneProgram id positive).StoredAs (R1cs.loneProgram id positive).encode where
  read := by
    have writable : (R1cs.loneProgram id positive).Writable := {
      parameters := fun _ member => absurd member List.not_mem_nil
      statements := by
        refine List.forall_mem_singleton.2 ⟨⟨?_, ?_⟩, ?_⟩
        · exact fun _ member => absurd member List.not_mem_nil
        · exact fun _ member => absurd member List.not_mem_nil
        · exact List.forall_mem_singleton.2
            ⟨short, Decimal.isWritable_of_lt (by decide : 1 < 10 ^ 1) (by decide)⟩ }
    have room : Field.scalars.HasRoom (R1cs.loneProgram id positive).coefficients :=
      List.forall_mem_singleton.2 (Field.scalars.element 1).reduced
    rw [Program.decode_encode _ writable, Field.accept_of_hasRoom room]
    rfl
  written := rfl
  wires := by
    refine ⟨_, R1cs.Sizing.compute_of_inside _ _ _ fun t member => ?_⟩
    obtain rfl := List.mem_singleton.1 member
    trivial

theorem crowded_lone (id : Nat) (positive : 0 < id) (large : 2 ^ 32 ≤ id) :
    ¬ R1cs.HasRoom Field.scalars (R1cs.loneProgram id positive).interface
      (R1cs.loneProgram id positive).constraints := fun room =>
  absurd (room.wires _ List.mem_cons_self id rfl) (Nat.not_lt.2 large)

/-- Neither a program whose wire is too large for a file, nor one whose name breaks the line, is
downloaded, although both are saved without blocks. -/
theorem download_incomplete :
    let wide := R1cs.loneProgram (2 ^ 32) (by decide)
    let s := (Store.empty.run [.save "wide" (.json wide.encode),
      .save "a\nb" (.json bareProgram.encode)]).1
    s.load "wide" = some (.ok wide) ∧ wide.hasBlocks = false ∧
      (s.handle (.download "wide")).2 = .broken ∧
    s.load "a\nb" = some (.ok bareProgram) ∧ bareProgram.hasBlocks = false ∧
      (s.handle (.download "a\nb")).2 = .broken := by
  intro wide s
  have stored : wide.StoredAs wide.encode :=
    storedAs_lone _ _ (Decimal.isWritable_of_lt (by decide : 2 ^ 32 < 10 ^ 10) (by decide))
  have crowded : ¬ R1cs.HasRoom Field.scalars wide.interface wide.constraints :=
    crowded_lone _ _ (Nat.le_refl _)
  obtain ⟨bytes, written, -⟩ := storedAs_bareProgram.fileBytes_of_hasRoom hasRoom_bareProgram
  obtain ⟨sizing, found⟩ := stored.wires
  obtain ⟨other, other_found⟩ := storedAs_bareProgram.wires
  have rows : s = (Store.empty.put "wide" wide.encode).put "a\nb" bareProgram.encode := by
    have first := handle_save_encode Store.empty "wide" stored.read found
    have second := handle_save_encode (Store.empty.put "wide" wide.encode) "a\nb"
      storedAs_bareProgram.read other_found
    simp only [s, run, first, second]
  have wide_loaded : s.load "wide" = some (.ok wide) := load_of_get? (rows ▸ rfl) stored
  have loaded : s.load "a\nb" = some (.ok bareProgram) := load_of_get? (rows ▸ rfl) storedAs_bareProgram
  refine ⟨wide_loaded, rfl, ?_, loaded, rfl, ?_⟩
  · rw [handle_download wide_loaded]
    exact downloadResponse_of_failed rfl (stored.fileBytes_of_crowded crowded)
  · rw [handle_download loaded, downloadResponse_of_written rfl written]
    rfl

end Store

end Circuit

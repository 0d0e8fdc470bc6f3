import Circuit.Proofs.Codec.Decoded
import Circuit.Proofs.Codec.RoundTrip
import Circuit.Proofs.R1cs.Outcome
import Circuit.Store.Service

/-!
# What a store holds

Whatever requests are answered, a store holds nothing but stored forms of programs whose public
variables lie in their public sections. Loading such a program never fails, and its export never
finds that the program contradicts itself.

* `Store.Sound` is the invariant: `Store.handle_sound` for one request, `Store.run_sound` for a row
  of them.
* `Store.run_invariant` says what follows for a store that was empty at first.
-/

namespace Circuit

/-- The data are the stored form of the program, and its wires can be found without its blocks. -/
structure Program.StoredAs (p : Program) (data : Json) : Prop where
  read : Program.decode Field.scalars data = .ok p
  written : p.encode = data
  wires : ∃ sizing, p.checkWires = .ok sizing

namespace Program

/-- What was read from a request is stored once its wires are found. -/
theorem storedAs_of_decode {p : Program} {data : Json}
    (read : Program.decode Field.scalars data = .ok p) (wires : ∃ sizing, p.checkWires = .ok sizing) :
    p.StoredAs p.encode :=
  ⟨decode_encode_of_decode Field.short_scalars read, rfl, wires⟩

/-- Blocks play no part in finding the wires. -/
theorem checkWires_clean (p : Program) : p.clean.checkWires = p.checkWires := by
  unfold checkWires
  rw [clean_clean]
  rfl

/-- Opening the blocks of a stored program makes one that could be stored. -/
theorem StoredAs.clean {p : Program} {data : Json} (stored : p.StoredAs data) :
    p.clean.StoredAs p.clean.encode where
  read := decode_encode_clean (stored.written ▸ stored.read)
  written := rfl
  wires := (checkWires_clean p).symm ▸ stored.wires

/-- The public variables of the exported constraints lie in the public section, as do those inside of
blocks. -/
theorem allInside_of_checkWires {p : Program} {sizing : R1cs.Sizing}
    (found : p.checkWires = .ok sizing) : R1cs.AllInside p.interface.publicCount p.constraints := by
  have inside := R1cs.Sizing.allInside_of_compute _ _ _ _ found
  intro t member
  obtain ⟨c, c_member, t_member⟩ := List.mem_flatMap.1 member
  exact inside t (List.mem_flatMap.2 ⟨c, p.constraints_subset_clean c_member, t_member⟩)

/-- An export never finds that a stored program contradicts itself. -/
theorem StoredAs.not_isInvariant {p : Program} {data : Json} (stored : p.StoredAs data)
    {fault : Fault} (failed : R1cs.fileBytes Field.scalars p = .error fault) :
    fault.isInvariant = false := by
  obtain ⟨sizing, found⟩ := stored.wires
  exact R1cs.not_isInvariant_of_inside (allInside_of_checkWires found) failed

end Program

namespace Store

/-- Every row of a store is a stored program. -/
def Sound (s : Store) : Prop := ∀ row ∈ s.rows, ∃ p : Program, p.StoredAs row.2

theorem empty_sound : Sound empty := fun _ member => absurd member List.not_mem_nil

theorem mem_putRow {name : String} {data : Json} {rows : List (String × Json)} {row : String × Json}
    (member : row ∈ putRow name data rows) : row = (name, data) ∨ row ∈ rows := by
  induction rows with
  | nil => exact .inl (List.mem_singleton.1 member)
  | cons first rest ih =>
      unfold putRow at member
      split at member
      · rcases List.mem_cons.1 member with rfl | later
        · exact .inl rfl
        · exact .inr (List.mem_cons_of_mem first later)
      · rcases List.mem_cons.1 member with rfl | later
        · exact .inr List.mem_cons_self
        · exact (ih later).imp id (List.mem_cons_of_mem first)

namespace Sound

variable {s : Store} (sound : s.Sound)

include sound

theorem put {p : Program} {data : Json} (stored : p.StoredAs data) (name : String) :
    (s.put name data).Sound := by
  intro row member
  rcases mem_putRow member with rfl | old
  · exact ⟨p, stored⟩
  · exact sound row old

theorem remove (name : String) : (s.remove name).Sound := fun row member =>
  sound row (List.mem_of_mem_filter member)

/-- A program is loaded from its stored form, without fail. -/
theorem load {name : String} {result : Except Fault Program} (found : s.load name = some result) :
    ∃ p data, result = .ok p ∧ p.StoredAs data := by
  obtain ⟨data, row_found, rfl⟩ := Option.map_eq_some_iff.1 found
  obtain ⟨before, after, split, -⟩ := List.lookup_eq_some_iff.1 row_found
  have member : (name, data) ∈ s.rows := by
    rw [split]
    exact List.mem_append_right before List.mem_cons_self
  obtain ⟨p, stored⟩ := sound _ member
  exact ⟨p, data, stored.read, stored⟩

/-- A request for a program can only end in a store that its response makes, or in the old one. -/
theorem withProgram (name : String) {respond : Program → Store × Response}
    (each : ∀ p data, p.StoredAs data → (respond p).1.Sound) :
    (s.withProgram name respond).1.Sound := by
  unfold Store.withProgram
  cases found : s.load name with
  | none => exact sound
  | some result =>
      obtain ⟨p, data, rfl, stored⟩ := sound.load found
      exact each p data stored

/-- A program is stored only if its wires were found. -/
theorem save (name : String) (body : Body) : (s.save name body).1.Sound := by
  unfold Store.save
  split
  · exact sound
  · split
    · exact sound
    · exact sound
    next p read =>
      -- Only here is something stored, and only if the wires were found.
      split
      next sizing found => exact sound.put (Program.storedAs_of_decode read ⟨sizing, found⟩) name
      · exact sound

end Sound

/-- One request leaves every row of a store a stored program. -/
theorem handle_sound {s : Store} (sound : s.Sound) (request : Request) :
    (s.handle request).1.Sound := by
  cases request with
  | list => exact sound
  | save name body => exact sound.save name body
  | summary name => exact sound.withProgram name fun _ _ _ => sound
  | delete name => exact sound.withProgram name fun _ _ _ => sound.remove name
  | clean name => exact sound.withProgram name fun _ _ stored => sound.put stored.clean name
  | download name => exact sound.withProgram name fun _ _ _ => sound
  | check name body => exact sound.withProgram name fun _ _ _ => sound

/-- A row of requests leaves every row of a store a stored program. -/
theorem run_sound {s : Store} (sound : s.Sound) (requests : List Request) :
    (s.run requests).1.Sound := by
  induction requests generalizing s with
  | nil => exact sound
  | cons request rest ih => exact ih (handle_sound sound request)

/-- After any requests, every row of a store that was empty holds a stored program: the data are read as
a program, this program is written as the data, and its wires are found without its blocks. So loading
a program never fails, and exporting it never finds that it contradicts itself. -/
theorem run_invariant (requests : List Request) :
    (∀ row ∈ (Store.empty.run requests).1.rows, ∃ p : Program,
      Program.decode Field.scalars row.2 = .ok p ∧ p.encode = row.2 ∧
        ∃ sizing, p.checkWires = .ok sizing) ∧
    ∀ name result, (Store.empty.run requests).1.load name = some result →
      ∃ p, result = .ok p ∧ ∀ fault, R1cs.fileBytes Field.scalars p = .error fault →
        fault.isInvariant = false := by
  have sound := run_sound empty_sound requests
  constructor
  · intro row member
    obtain ⟨p, stored⟩ := sound row member
    exact ⟨p, stored.read, stored.written, stored.wires⟩
  · intro name result found
    obtain ⟨p, data, loaded, stored⟩ := sound.load found
    exact ⟨p, loaded, fun fault failed => stored.not_isInvariant failed⟩

/-! ### A program that is saved and taken out of its blocks -/

/-- A stored form that is sent is stored as it is. -/
theorem handle_save_encode (s : Store) (name : String) {p : Program} {sizing : R1cs.Sizing}
    (read : Program.decode Field.scalars p.encode = .ok p) (found : p.checkWires = .ok sizing) :
    (s.handle (.save name (.json p.encode))).1 = s.put name p.encode := by
  obtain ⟨fields, object⟩ : ∃ fields, p.encode = .obj fields := ⟨_, rfl⟩
  have sent : (Body.json p.encode).fields? = some fields := by
    rw [object]
    rfl
  rw [object] at read
  simp only [handle, save, sent, read, found, keep]

theorem handle_clean (s : Store) (name : String) {p : Program}
    (loaded : s.load name = some (.ok p)) :
    (s.handle (.clean name)).1 = s.put name p.clean.encode := by
  simp only [handle, withProgram, loaded, keep]

/-- The program with blocks inside blocks, as it is read. -/
def nestedStored : Program := nestedProgram.recast Field.scalars

theorem read_nestedStored : Program.decode Field.scalars nestedStored.encode = .ok nestedStored := by
  have room : Field.scalars.HasRoom nestedProgram.coefficients := by decide
  rw [nestedStored, Program.encode_recast room, Program.decode_encode _ writable_nestedProgram]
  exact Field.accept_of_hasRoom room

theorem wires_nestedStored : ∃ sizing, nestedStored.checkWires = .ok sizing := by
  have inside : R1cs.AllInside nestedStored.interface.publicCount nestedStored.clean.constraints := by
    unfold R1cs.AllInside
    decide
  exact ⟨_, R1cs.Sizing.compute_of_inside _ _ _ inside⟩

/-- The row is there, and what is loaded from it can be exported. -/
theorem run_invariant_nested :
    (Store.empty.run [.save "nested" (.json nestedStored.encode), .clean "nested"]).1.rows =
      [("nested", nestedStored.clean.encode)] ∧
    ∃ p, (Store.empty.run [.save "nested" (.json nestedStored.encode), .clean "nested"]).1.load
        "nested" = some (.ok p) ∧
      ∀ fault, R1cs.fileBytes Field.scalars p = .error fault → fault.isInvariant = false := by
  obtain ⟨sizing, found⟩ := wires_nestedStored
  have saved := handle_save_encode Store.empty "nested" read_nestedStored found
  have loaded : (Store.empty.put "nested" nestedStored.encode).load "nested" =
      some (.ok nestedStored) :=
    congrArg some read_nestedStored
  have rows : (Store.empty.run [.save "nested" (.json nestedStored.encode), .clean "nested"]).1.rows =
      [("nested", nestedStored.clean.encode)] := by
    simp only [run, saved, handle_clean _ "nested" loaded]
    rfl
  refine ⟨rows, ?_⟩
  obtain ⟨-, loads⟩ :=
    run_invariant [.save "nested" (.json nestedStored.encode), .clean "nested"]
  have present : (Store.empty.run [.save "nested" (.json nestedStored.encode),
      .clean "nested"]).1.load "nested" =
        some (Program.decode Field.scalars nestedStored.clean.encode) := by
    unfold load get?
    rw [rows]
    rfl
  obtain ⟨p, equal, safe⟩ := loads "nested" _ present
  exact ⟨p, equal ▸ present, safe⟩

end Store

end Circuit

import Circuit.Field.Text
import Circuit.Variable.Reading

/-!
# Witnesses

A witness assigns integers to variables, in the order of the variables. The integers of a witness
over a field are the values of its elements; a witness may also hold other integers.

* `Witness.insert` sets a value, `Witness.get?` finds it: `get?_insert`.
* `Witness.returns` and `Witness.outputs` give the values of the first public slots.
-/

namespace Circuit

/-- Values of variables, in the order of the variables. -/
structure Witness where
  entries : List (Variable × Int)
  ascending : entries.Pairwise fun d e => d.1.raw < e.1.raw
deriving Repr

namespace Witness

/-- Witnesses are equal when they have the same entries. -/
instance : DecidableEq Witness := fun w u =>
  decidable_of_iff (w.entries = u.entries)
    ⟨fun h => by cases w; cases u; subst h; rfl, congrArg entries⟩

def empty : Witness := ⟨[], .nil⟩

def insertEntry (v : Variable) (x : Int) : List (Variable × Int) → List (Variable × Int)
  | [] => [(v, x)]
  | e :: rest =>
      if v = e.1 then (v, x) :: rest
      else if v.precedes e.1 then (v, x) :: e :: rest
      else e :: insertEntry v x rest

theorem mem_insertEntry {v : Variable} {x : Int} {rows : List (Variable × Int)}
    {e : Variable × Int} (h : e ∈ insertEntry v x rows) : e = (v, x) ∨ e ∈ rows := by
  induction rows with
  | nil => exact .inl (List.mem_singleton.1 h)
  | cons d rest ih =>
      rw [insertEntry] at h
      split at h
      · exact (List.mem_cons.1 h).imp id (List.mem_cons_of_mem d)
      · split at h
        · exact List.mem_cons.1 h
        · rcases List.mem_cons.1 h with rfl | h
          · exact .inr List.mem_cons_self
          · exact (ih h).imp id (List.mem_cons_of_mem d)

/-- An insertion keeps the order of variables, and no variable gets two entries. -/
theorem ascending_insertEntry (v : Variable) (x : Int) {rows : List (Variable × Int)}
    (h : rows.Pairwise fun d e => d.1.raw < e.1.raw) :
    (insertEntry v x rows).Pairwise fun d e => d.1.raw < e.1.raw := by
  induction rows with
  | nil => exact List.pairwise_singleton _ _
  | cons d rest ih =>
      obtain ⟨above, later⟩ := List.pairwise_cons.1 h
      rw [insertEntry]
      split
      · rename_i equal
        exact List.pairwise_cons.2 ⟨fun e he => equal ▸ above e he, later⟩
      · rename_i different
        split
        · rename_i before
          have before : v.raw < d.1.raw := of_decide_eq_true before
          refine List.pairwise_cons.2 ⟨fun e he => ?_, h⟩
          rcases List.mem_cons.1 he with rfl | he
          · exact before
          · exact Int.lt_trans before (above e he)
        · rename_i after
          have after : ¬ v.raw < d.1.raw := fun h => after (decide_eq_true h)
          have unequal : v.raw ≠ d.1.raw := fun h => different (Variable.raw_inj.1 h)
          refine List.pairwise_cons.2 ⟨fun e he => ?_, ih later⟩
          rcases mem_insertEntry he with rfl | he
          · show d.1.raw < v.raw
            omega
          · exact above e he

def insert (w : Witness) (v : Variable) (x : Int) : Witness :=
  ⟨insertEntry v x w.entries, ascending_insertEntry v x w.ascending⟩

def ofList (assignments : List (Variable × Int)) : Witness :=
  assignments.foldl (fun w a => w.insert a.1 a.2) empty

/-- The witness of integers reduced into a field. -/
def ofInts (F : Field) (assignments : List (Variable × Int)) : Witness :=
  ofList (assignments.map fun a => (a.1, (F.element a.2).toInt))

def get? (w : Witness) (v : Variable) : Option Int :=
  w.entries.lookup v

/-- A look-up after an insertion, by the cases of the insertion. -/
theorem lookup_insertEntry (v u : Variable) (x : Int) (rows : List (Variable × Int)) :
    (insertEntry v x rows).lookup u = if u = v then some x else rows.lookup u := by
  induction rows with
  | nil =>
      by_cases h : u = v
      · simp [insertEntry, h]
      · simp [insertEntry, List.lookup_cons, h, beq_false_of_ne h]
  | cons d rest ih =>
      obtain ⟨key, value⟩ := d
      rw [insertEntry]
      by_cases h : u = v
      · subst h
        by_cases hk : u = key
        · simp [hk]
        · by_cases before : u.precedes key = true
          · simp [hk, before]
          · simp [hk, before, List.lookup_cons, beq_false_of_ne hk, ih]
      · by_cases hv : v = key
        · subst hv
          simp [h, List.lookup_cons, beq_false_of_ne h]
        · by_cases before : v.precedes key = true
          · simp [hv, before, h, List.lookup_cons, beq_false_of_ne h]
          · by_cases hu : u = key
            · subst hu
              simp [hv, before, h]
            · simp [hv, before, h, List.lookup_cons, beq_false_of_ne hu, ih]

theorem get?_insert (w : Witness) (v u : Variable) (x : Int) :
    (w.insert v x).get? u = if u = v then some x else w.get? u :=
  lookup_insertEntry v u x w.entries

/-- The value of a variable, or the fault that it has none. -/
def get (w : Witness) (v : Variable) : Except Fault Int :=
  match w.get? v with
  | some x => .ok x
  | none => .error (.missingValue v)

def contains (w : Witness) (v : Variable) : Bool := (w.get? v).isSome

def size (w : Witness) : Nat := w.entries.length

def vars (w : Witness) : List Variable := w.entries.map (·.1)

/-- The values of `count` public slots from a given one on, up to the first one without a value. -/
def returnsFrom (w : Witness) (index : Nat) : Nat → Except Fault (List Int)
  | 0 => .ok []
  | count + 1 =>
      match w.get (.pub index) with
      | .error fault => .error fault
      | .ok x => (returnsFrom w (index + 1) count).map (x :: ·)

def returns (w : Witness) (count : Nat) : Except Fault (List Int) := w.returnsFrom 0 count

/-- The values of the first `count` public slots as an array of decimal texts. -/
def outputs (w : Witness) (count : Nat) : Except Fault String :=
  (w.returns count).map fun values =>
    "[" ++ String.intercalate ", " (values.map fun x => "\"" ++ Decimal.ofInt x ++ "\"") ++ "]"

end Witness

end Circuit

import Circuit.Json.Basic

/-!
# Stores

A store keeps one JSON value under each name.

* `Store.put`, `Store.remove` and `Store.get?` are those of a map: `get?_put`, `get?_remove`.
* `Store.names` are the names in ascending order.
-/

namespace Circuit

/-- Named rows, in the order in which the names came. -/
structure Store where
  rows : List (String × Json)
deriving Repr

namespace Store

def empty : Store := ⟨[]⟩

def get? (s : Store) (name : String) : Option Json := s.rows.lookup name

/-- Sets the value under a name among rows; a new name comes last. -/
def putRow (name : String) (data : Json) : List (String × Json) → List (String × Json)
  | [] => [(name, data)]
  | row :: rest => if row.1 = name then (name, data) :: rest else row :: putRow name data rest

def put (s : Store) (name : String) (data : Json) : Store := ⟨putRow name data s.rows⟩

def remove (s : Store) (name : String) : Store := ⟨s.rows.filter fun row => row.1 ≠ name⟩

def names (s : Store) : List String :=
  (s.rows.map (·.1)).mergeSort fun a b => decide (a ≤ b)

/-- A put shows under its own name and nowhere else. -/
theorem lookup_putRow (name other : String) (data : Json) (rows : List (String × Json)) :
    (putRow name data rows).lookup other =
      if other = name then some data else rows.lookup other := by
  induction rows with
  | nil =>
      by_cases h : other = name
      · simp [putRow, h]
      · simp [putRow, List.lookup_cons, h, beq_false_of_ne h]
  | cons row rest ih =>
      obtain ⟨key, value⟩ := row
      by_cases hk : key = name
      · subst hk
        by_cases h : other = key
        · simp [putRow, h]
        · simp [putRow, List.lookup_cons, h, beq_false_of_ne h]
      · by_cases h : other = key
        · subst h
          simp [putRow, hk]
        · simp only [putRow, hk, if_false, List.lookup_cons, beq_false_of_ne h]
          exact ih

theorem get?_put (s : Store) (name other : String) (data : Json) :
    (s.put name data).get? other = if other = name then some data else s.get? other :=
  lookup_putRow name other data s.rows

theorem lookup_filter_ne (name other : String) (rows : List (String × Json)) :
    (rows.filter fun row => row.1 ≠ name).lookup other =
      if other = name then none else rows.lookup other := by
  induction rows with
  | nil => simp
  | cons row rest ih =>
      obtain ⟨key, value⟩ := row
      by_cases hk : key = name
      · rw [List.filter_cons_of_neg (by simp [hk]), ih]
        by_cases h : other = name
        · simp [h]
        · simp [List.lookup_cons, h, hk, beq_false_of_ne h]
      · rw [List.filter_cons_of_pos (by simp [hk])]
        by_cases h : other = key
        · subst h
          simp [hk]
        · simp only [List.lookup_cons, beq_false_of_ne h, ih]

theorem get?_remove (s : Store) (name other : String) :
    (s.remove name).get? other = if other = name then none else s.get? other :=
  lookup_filter_ne name other s.rows

end Store

end Circuit

/-!
# Dictionaries keyed by text

`Dict α` is a finite map from strings, held as its entries in increasing key order. Order and
uniqueness of the keys are part of the type, so equal maps are equal values and no order of
insertion can be seen. `get?_insert` is the one equation lookups are reasoned with.
-/

namespace BoundSql

/-- A finite map from strings, as its entries in strictly increasing key order. -/
structure Dict (α : Type) where
  entries : List (String × α)
  increasing : entries.Pairwise (fun a b => a.1 < b.1)

namespace Dict

variable {α β : Type}

/-- The map without entries. -/
def empty : Dict α := ⟨[], .nil⟩

instance : EmptyCollection (Dict α) := ⟨empty⟩

instance : Inhabited (Dict α) := ⟨empty⟩

/-- Two maps with the same entries are the same map. -/
@[ext] theorem ext {d d' : Dict α} (h : d.entries = d'.entries) : d = d' := by
  cases d; cases d'; cases h; rfl

/-- Puts an entry at its place in key order, over an entry with the same key. -/
def insertEntry (key : String) (value : α) : List (String × α) → List (String × α)
  | [] => [(key, value)]
  | (k, v) :: rest =>
    if key < k then (key, value) :: (k, v) :: rest
    else if key = k then (key, value) :: rest
    else (k, v) :: insertEntry key value rest

/-- The value in the first entry with the key. -/
def find (key : String) : List (String × α) → Option α
  | [] => none
  | (k, v) :: rest => if k = key then some v else find key rest

/-- An insertion brings in the new entry only. -/
theorem mem_insertEntry {key : String} {value : α} {e : String × α} {l : List (String × α)}
    (h : e ∈ insertEntry key value l) : e = (key, value) ∨ e ∈ l := by
  induction l with
  | nil => simpa [insertEntry] using h
  | cons hd rest ih =>
    obtain ⟨k, v⟩ := hd
    simp only [insertEntry] at h
    split at h
    · simpa using h
    · split at h
      · rcases List.mem_cons.1 h with h | h
        · exact .inl h
        · exact .inr (List.mem_cons_of_mem _ h)
      · rcases List.mem_cons.1 h with h | h
        · exact .inr (h ▸ List.mem_cons_self)
        · exact (ih h).imp id (List.mem_cons_of_mem _)

/-- An insertion leaves the entries in increasing order of their keys. -/
theorem pairwise_insertEntry (key : String) (value : α) {l : List (String × α)}
    (h : l.Pairwise (fun a b => a.1 < b.1)) :
    (insertEntry key value l).Pairwise (fun a b => a.1 < b.1) := by
  induction l with
  | nil => simp [insertEntry]
  | cons hd rest ih =>
    obtain ⟨k, v⟩ := hd
    obtain ⟨hk, hrest⟩ := List.pairwise_cons.1 h
    simp only [insertEntry]
    split
    · rename_i lt
      refine List.pairwise_cons.2 ⟨fun e he => ?_, h⟩
      rcases List.mem_cons.1 he with rfl | he
      · exact lt
      · exact String.lt_trans lt (hk e he)
    · split
      · rename_i eq
        exact List.pairwise_cons.2 ⟨fun e he => eq ▸ hk e he, hrest⟩
      · rename_i nlt ne
        refine List.pairwise_cons.2 ⟨fun e he => ?_, ih hrest⟩
        rcases mem_insertEntry he with rfl | he
        · rcases Std.lt_trichotomy key k with h | h | h
          · exact absurd h nlt
          · exact absurd h ne
          · exact h
        · exact hk e he

/-- After an insertion the new key has the new value, and every other key the value that it had. -/
theorem find_insertEntry (key : String) (value : α) (other : String) (l : List (String × α)) :
    find other (insertEntry key value l) = if key = other then some value else find other l := by
  induction l with
  | nil => rfl
  | cons hd rest ih =>
    obtain ⟨k, v⟩ := hd
    simp only [insertEntry]
    split
    · rfl
    · split
      · rename_i eq
        subst eq
        by_cases h : key = other <;> simp [find, h]
      · rename_i ne
        by_cases h : k = other
        · subst h
          simp [find, ne]
        · simp [find, h, ih]

/-- The map with one more entry, or with a new value for a key it has. -/
def insert (d : Dict α) (key : String) (value : α) : Dict α :=
  ⟨insertEntry key value d.entries, pairwise_insertEntry key value d.increasing⟩

/-- The value of a key. -/
def get? (d : Dict α) (key : String) : Option α :=
  find key d.entries

/-- Whether a key has a value. -/
def contains (d : Dict α) (key : String) : Bool :=
  (d.get? key).isSome

/-- The values in key order. -/
def values (d : Dict α) : List α :=
  d.entries.map (·.2)

/-- The map of a list of entries; of two with one key the later counts. -/
def ofList (l : List (String × α)) : Dict α :=
  l.foldl (fun d e => d.insert e.1 e.2) ∅

@[simp] theorem get?_empty (key : String) : (∅ : Dict α).get? key = none := rfl

/-- A lookup sees the inserted value at its key and the old map elsewhere. -/
theorem get?_insert (d : Dict α) (key : String) (value : α) (other : String) :
    (d.insert key value).get? other = if key = other then some value else d.get? other :=
  find_insertEntry key value other d.entries

/-- A value that a map has for a key is one of its values. -/
theorem mem_values_of_get? {d : Dict α} {key : String} {v : α} (h : d.get? key = some v) :
    v ∈ d.values := by
  obtain ⟨entries, increasing⟩ := d
  change find key entries = some v at h
  change v ∈ entries.map (·.2)
  clear increasing
  induction entries with
  | nil => cases h
  | cons entry rest ih =>
    rw [find] at h
    split at h
    · cases h
      exact List.mem_cons_self
    · exact List.mem_cons_of_mem _ (ih h)

end Dict

instance {α : Type} [DecidableEq α] : DecidableEq (Dict α) := fun d d' =>
  decidable_of_iff (d.entries = d'.entries) ⟨Dict.ext, fun h => h ▸ rfl⟩

end BoundSql

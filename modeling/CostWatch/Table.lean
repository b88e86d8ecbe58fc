/-!
Finite maps as lists of entries, in the order in which their keys came. `find?` is the map that a
table stands for.
-/

set_option autoImplicit false

namespace CostWatch

structure Table (κ α : Type) where
  entries : List (κ × α)
  /-- Every key has one entry. -/
  distinct : (entries.map (·.1)).Nodup

namespace Table

variable {κ α : Type} [DecidableEq κ]

def empty : Table κ α := ⟨[], .nil⟩

def find? (t : Table κ α) (key : κ) : Option α :=
  t.entries.lookup key

def contains (t : Table κ α) (key : κ) : Bool :=
  (t.find? key).isSome

/-- Replaces the value of a key where the key stands, or adds the key at the end. -/
def putEntry (key : κ) (value : α) : List (κ × α) → List (κ × α)
  | [] => [(key, value)]
  | (k, v) :: rest => if k = key then (key, value) :: rest else (k, v) :: putEntry key value rest

theorem mem_keys_putEntry {key other : κ} {value : α} {entries : List (κ × α)} :
    other ∈ (putEntry key value entries).map (·.1) ↔
      other = key ∨ other ∈ entries.map (·.1) := by
  induction entries with
  | nil => simp [putEntry]
  | cons entry rest ih =>
    rw [putEntry]
    split
    · next same => simp [same]
    · rw [List.map_cons, List.map_cons, List.mem_cons, List.mem_cons, ih]
      exact or_left_comm

theorem distinct_putEntry {key : κ} {value : α} {entries : List (κ × α)}
    (distinct : (entries.map (·.1)).Nodup) :
    ((putEntry key value entries).map (·.1)).Nodup := by
  induction entries with
  | nil => simp [putEntry]
  | cons entry rest ih =>
    have ⟨new, tail⟩ := List.nodup_cons.1 distinct
    rw [putEntry]
    split
    · next same => exact same ▸ distinct
    · next different =>
      refine List.nodup_cons.2 ⟨?_, ih tail⟩
      intro member
      rcases mem_keys_putEntry.1 member with same | old
      · exact different same
      · exact new old

def put (t : Table κ α) (key : κ) (value : α) : Table κ α :=
  ⟨putEntry key value t.entries, distinct_putEntry t.distinct⟩

/-- The map of a list of entries; of several with one key the last one counts. -/
def ofList (entries : List (κ × α)) : Table κ α :=
  entries.foldl (fun t entry => t.put entry.1 entry.2) empty

def erase (t : Table κ α) (key : κ) : Table κ α :=
  ⟨t.entries.filter fun entry => entry.1 ≠ key,
    t.distinct.sublist (List.filter_sublist.map _)⟩

def filter (t : Table κ α) (keep : κ → Bool) : Table κ α :=
  ⟨t.entries.filter fun entry => keep entry.1,
    t.distinct.sublist (List.filter_sublist.map _)⟩

def keys (t : Table κ α) : List κ :=
  t.entries.map (·.1)

def size (t : Table κ α) : Nat :=
  t.entries.length

/-! What each operation does to the map -/

@[simp] theorem find?_empty (key : κ) : (empty : Table κ α).find? key = none :=
  rfl

theorem lookup_cons_ite {ι β : Type} [BEq ι] [LawfulBEq ι] [DecidableEq ι] (key other : ι)
    (value : β) (rest : List (ι × β)) :
    ((key, value) :: rest).lookup other =
      if other = key then some value else rest.lookup other := by
  by_cases h : other = key
  · simp [h]
  · simp [List.lookup_cons, beq_false_of_ne h, h]

theorem lookup_putEntry (key other : κ) (value : α) (entries : List (κ × α)) :
    (putEntry key value entries).lookup other =
      if other = key then some value else entries.lookup other := by
  induction entries with
  | nil => simp [putEntry, lookup_cons_ite]
  | cons entry rest ih =>
    obtain ⟨k, v⟩ := entry
    by_cases hk : k = key
    · by_cases h : other = key <;> simp [putEntry, lookup_cons_ite, hk, h]
    · by_cases h : other = k <;> simp [putEntry, lookup_cons_ite, hk, h, ih]

theorem lookup_filter_ne (key other : κ) (entries : List (κ × α)) :
    (entries.filter fun entry => entry.1 ≠ key).lookup other =
      if other = key then none else entries.lookup other := by
  induction entries with
  | nil => simp
  | cons entry rest ih =>
    obtain ⟨k, v⟩ := entry
    by_cases hk : k = key
    · rw [List.filter_cons_of_neg (by simpa using hk), ih, lookup_cons_ite, hk]
      by_cases h : other = key <;> simp [h]
    · rw [List.filter_cons_of_pos (by simpa using hk), lookup_cons_ite, lookup_cons_ite, ih]
      by_cases h : other = k
      · simp [h, hk]
      · simp [h]

@[simp] theorem find?_put (t : Table κ α) (key other : κ) (value : α) :
    (t.put key value).find? other = if other = key then some value else t.find? other :=
  lookup_putEntry key other value t.entries

@[simp] theorem find?_erase (t : Table κ α) (key other : κ) :
    (t.erase key).find? other = if other = key then none else t.find? other :=
  lookup_filter_ne key other t.entries

theorem lookup_filter (keep : κ → Bool) (key : κ) (entries : List (κ × α)) :
    (entries.filter fun entry => keep entry.1).lookup key =
      if keep key then entries.lookup key else none := by
  induction entries with
  | nil => simp
  | cons entry rest ih =>
    obtain ⟨k, v⟩ := entry
    by_cases hk : keep k
    · rw [List.filter_cons_of_pos (by simpa using hk), lookup_cons_ite, lookup_cons_ite, ih]
      by_cases h : key = k
      · simp [h, hk]
      · simp [h]
    · rw [List.filter_cons_of_neg (by simpa using hk), ih, lookup_cons_ite]
      by_cases h : key = k
      · simp [h, hk]
      · simp [h]

@[simp] theorem find?_filter (t : Table κ α) (keep : κ → Bool) (key : κ) :
    (t.filter keep).find? key = if keep key then t.find? key else none :=
  lookup_filter keep key t.entries

end Table

end CostWatch

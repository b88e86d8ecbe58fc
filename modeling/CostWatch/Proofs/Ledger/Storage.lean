import CostWatch.Ledger.Storage
import CostWatch.Proofs.Cost.Histories
import CostWatch.Proofs.Json.RoundTrip
import CostWatch.Proofs.Text.Utf8
import CostWatch.Proofs.Traversal
import Mathlib.Data.Set.List

/-!
What the database holds is what was put into it: histories and names are read back as they were
written, under the keys under which they were written.
-/

set_option autoImplicit false

namespace CostWatch

open Json

/-! Records and histories -/

theorem Location.ofData_data (l : Location) : Location.ofData l.data = l := by
  cases l
  simp [ofData, data]

theorem Cost.ofData_data (c : Cost) : Cost.ofData c.data = c := by
  obtain ⟨polynomial, degree, bigO⟩ := c
  cases degree with
  | none => rfl
  | some n => exact congrArg (fun n => Cost.mk polynomial (some n) bigO) UInt32.ofNat_toNat

theorem Record.ofData_data (r : Record) : Record.ofData r.data = r := by
  obtain ⟨id, method, location, allocation, execution, timestamp⟩ := r
  simp only [ofData, data, Location.ofData_data, Cost.ofData_data]
  cases timestamp <;> rfl

theorem readable_word32 (n : UInt32) : Schema.word32.Readable n.toNat := by
  have small := n.toNat_lt
  exact ⟨by simp [Text.maxWord32]; omega, by decide⟩

theorem Cost.readable_data (c : Cost) : Cost.schema.Readable c.data := by
  refine ⟨by decide, trivial, ⟨rfl, ?_⟩, trivial, trivial⟩
  intro n same
  obtain ⟨degree, _, rfl⟩ := Option.map_eq_some_iff.mp same
  exact readable_word32 degree

theorem Record.readable_data (r : Record) : Record.schema.Readable r.data := by
  refine ⟨by decide, trivial, trivial, ⟨by decide, trivial, readable_word32 _, trivial⟩,
    r.allocation.readable_data, r.execution.readable_data, ?_, trivial⟩
  intro found _
  exact ⟨rfl, fun _ _ => trivial⟩

theorem Record.readable_list (records : List Record) :
    Record.listSchema.Readable (records.map Record.data) := by
  intro d member
  obtain ⟨r, _, rfl⟩ := List.mem_map.mp member
  exact r.readable_data

theorem Record.ofData_list (records : List Record) :
    (records.map Record.data).map Record.ofData = records := by
  rw [List.map_map, List.map_congr_left fun r _ => r.ofData_data, List.map_id']

namespace Storage

@[simp] theorem decodeHistory_encodeHistory (h : History) :
    decodeHistory (encodeHistory h) = .ok h := by
  have read : Record.listSchema.decode (symbolsOfBytes (encodeHistory h)) =
      .ok (h.map Record.data) := by
    rw [encodeHistory, symbolsOfBytes_encode]
    exact Schema.decode_compact (Record.readable_list h) (by decide)
  rw [decodeHistory, read]
  exact congrArg Except.ok (Record.ofData_list h)

theorem encodeHistory_injective : Function.Injective encodeHistory := by
  intro h k same
  have read := congrArg decodeHistory same
  rw [decodeHistory_encodeHistory, decodeHistory_encodeHistory] at read
  exact Except.ok.inj read

/-! Entries -/

def historyEntry (entry : MethodId × History) : List UInt8 × List UInt8 :=
  (Text.Utf8.encode entry.1.key, encodeHistory entry.2)

def nameEntry (name : String) : List UInt8 × List UInt8 :=
  (Text.Utf8.encode name, [])

@[simp] theorem historyOfEntry_historyEntry (entry : MethodId × History) :
    historyOfEntry (historyEntry entry) = .ok entry := by
  simp [historyOfEntry, historyEntry]

@[simp] theorem nameOfEntry_nameEntry (name : String) :
    nameOfEntry (nameEntry name) = .ok name := by
  simp [nameOfEntry, nameEntry]

theorem encodeKey_inj {id other : MethodId} :
    Text.Utf8.encode id.key = Text.Utf8.encode other.key ↔ id = other := by
  refine ⟨fun same => ?_, fun same => same ▸ rfl⟩
  cases id
  cases other
  exact congrArg MethodId.mk (Text.Utf8.encode_injective same)

theorem lookup_historyEntry (stored : List (MethodId × History)) (id : MethodId) :
    (stored.map historyEntry).lookup (Text.Utf8.encode id.key) =
      (stored.lookup id).map encodeHistory := by
  induction stored with
  | nil => rfl
  | cons entry rest ih =>
    obtain ⟨other, h⟩ := entry
    rw [List.map_cons, historyEntry, Table.lookup_cons_ite, Table.lookup_cons_ite, ih]
    simp only [encodeKey_inj]
    split <;> rfl

/-- A database that holds histories and names, and nothing else. -/
structure Holds (s : Storage) (stored : List (MethodId × History)) (names : List String) :
    Prop where
  histories : s.histories.entries = stored.map historyEntry
  names : s.whitelist.entries = names.map nameEntry

section
variable {s : Storage} {stored : List (MethodId × History)} {names : List String}

theorem Holds.loadHistories (holds : s.Holds stored names) : s.loadHistories = .ok stored := by
  rw [Storage.loadHistories, holds.histories]
  exact mapM_map_eq_ok fun entry _ => historyOfEntry_historyEntry entry

theorem Holds.loadNames (holds : s.Holds stored names) :
    s.whitelist.entries.mapM nameOfEntry = .ok names := by
  rw [holds.names]
  exact mapM_map_eq_ok fun name _ => nameOfEntry_nameEntry name

theorem Holds.loadWhitelist (holds : s.Holds stored names) :
    s.loadWhitelist = .ok (.ofNames names) := by
  rw [Storage.loadWhitelist, holds.loadNames]
  rfl

theorem Holds.distinct (holds : s.Holds stored names) :
    (stored.map (·.1)).Nodup ∧ names.Nodup := by
  have apart (t : Tree) : (t.entries.map (·.1)).Nodup :=
    List.pairwise_map.mpr (t.increasing.imp fun before => Std.ne_of_lt before)
  have histories := apart s.histories
  have whitelist := apart s.whitelist
  rw [holds.histories, List.map_map] at histories
  rw [holds.names, List.map_map] at whitelist
  refine ⟨?_, whitelist.of_map _⟩
  have keys : stored.map (Prod.fst ∘ historyEntry) =
      (stored.map (·.1)).map fun id => Text.Utf8.encode id.key := by
    rw [List.map_map]
    rfl
  exact (keys ▸ histories).of_map _

theorem Holds.find? (holds : s.Holds stored names) (id : MethodId) :
    s.histories.find? (Text.Utf8.encode id.key) = (stored.lookup id).map encodeHistory := by
  rw [Tree.find?, holds.histories, lookup_historyEntry]

theorem Holds.contains_name (holds : s.Holds stored names) (name : String) :
    s.whitelist.contains (Text.Utf8.encode name) = true ↔ name ∈ names := by
  rw [Tree.contains, Tree.find?, holds.names]
  clear holds
  induction names with
  | nil => simp
  | cons first rest ih =>
    rw [List.map_cons, nameEntry, Table.lookup_cons_ite]
    by_cases same : name = first
    · simp [same]
    · rw [if_neg (mt (fun equal => Text.Utf8.encode_injective equal) same), ih]
      simp [same]

/-! What writing does -/

theorem exists_map_eq {α β : Type} {f : α → β} {items : List β}
    (each : ∀ b ∈ items, ∃ a, f a = b) : ∃ sources : List α, items = sources.map f := by
  have inRange : items ∈ Set.range (List.map f) := by
    rw [Set.range_list_map]
    exact each
  obtain ⟨sources, same⟩ := inRange
  exact ⟨sources, same.symm⟩

theorem mem_insertEntry {key value : List UInt8} {entries : List (List UInt8 × List UInt8)}
    {entry : List UInt8 × List UInt8} (member : entry ∈ Tree.insertEntry key value entries) :
    entry = (key, value) ∨ entry ∈ entries := by
  induction entries with
  | nil => exact .inl (List.mem_singleton.mp member)
  | cons first rest ih =>
    rw [Tree.insertEntry] at member
    split at member
    · exact (List.mem_cons.mp member).imp_right (List.mem_cons_of_mem _)
    · split at member
      · exact List.mem_cons.mp member
      · rcases List.mem_cons.mp member with rfl | later
        · exact .inr List.mem_cons_self
        · exact (ih later).imp_right (List.mem_cons_of_mem _)

def putHistory (t : Tree) (id : MethodId) (h : History) : Tree :=
  t.insert (Text.Utf8.encode id.key) (encodeHistory h)

theorem find?_putHistory (t : Tree) (id : MethodId) (h : History) (other : MethodId) :
    (putHistory t id h).find? (Text.Utf8.encode other.key) =
      if other = id then some (encodeHistory h) else t.find? (Text.Utf8.encode other.key) := by
  rw [putHistory, Tree.find?_insert]
  simp only [encodeKey_inj]

def putHistories (t : Tree) (batch : StagedHistories) : Tree :=
  batch.foldl (fun t entry => putHistory t entry.1 entry.2) t

theorem find?_putHistories (t : Tree) {batch : StagedHistories}
    (distinct : (batch.map (·.1)).Nodup) (id : MethodId) :
    (putHistories t batch).find? (Text.Utf8.encode id.key) =
      ((batch.lookup id).map encodeHistory).or (t.find? (Text.Utf8.encode id.key)) :=
  Table.get_foldl (fun (t : Tree) (id : MethodId) => t.find? (Text.Utf8.encode id.key)) putHistory
    encodeHistory find?_putHistory distinct t id

theorem mem_putHistories {t : Tree} (before : ∀ entry ∈ t.entries, ∃ a, historyEntry a = entry)
    (batch : StagedHistories) :
    ∀ entry ∈ (putHistories t batch).entries, ∃ a, historyEntry a = entry := by
  unfold putHistories
  induction batch generalizing t with
  | nil => exact before
  | cons first rest ih =>
    refine ih fun entry member => ?_
    rcases mem_insertEntry member with rfl | old
    · exact ⟨first, rfl⟩
    · exact before entry old

theorem tree_ext {t u : Tree} (same : ∀ key, t.find? key = u.find? key) : t = u := by
  have distinct (v : Tree) : (v.entries.map (·.1)).Nodup :=
    List.pairwise_map.mpr (v.increasing.imp fun before => Std.ne_of_lt before)
  have perm : t.entries.Perm u.entries := Table.perm_of_lookup (distinct t) (distinct u) same
  have entries : t.entries = u.entries :=
    perm.eq_of_pairwise (fun _ _ _ _ before after => absurd after (List.lt_asymm before))
      t.increasing u.increasing
  cases t
  cases u
  cases entries
  rfl

/-- Histories of different methods may be stored in any order. -/
theorem putHistories_of_perm (t : Tree) {batch other : StagedHistories} (perm : batch.Perm other)
    (distinct : (batch.map (·.1)).Nodup) : putHistories t batch = putHistories t other := by
  refine perm.foldl_eq' (fun entry member next among t => tree_ext fun key => ?_) t
  simp only [putHistory, Tree.find?_insert]
  by_cases same : entry.1 = next.1
  · cases List.inj_on_of_nodup_map distinct member among same
    rfl
  · have apart := mt encodeKey_inj.mp same
    by_cases own : key = Text.Utf8.encode entry.1.key
    · rw [if_pos own, if_neg fun other => apart (own.symm.trans other)]
      rw [if_pos own]
    · rw [if_neg own, if_neg own]

/-- Histories that are stored replace those of the same methods. -/
theorem Holds.putHistories (holds : s.Holds stored names) {batch : StagedHistories}
    (distinct : (batch.map (·.1)).Nodup) :
    ∃ stored', { s with histories := putHistories s.histories batch }.Holds stored' names ∧
      ∀ id, stored'.lookup id = (batch.lookup id).or (stored.lookup id) := by
  have before : ∀ entry ∈ s.histories.entries, ∃ a, historyEntry a = entry := by
    rw [holds.histories]
    exact fun entry member => (List.mem_map.mp member).imp fun _ found => found.2
  obtain ⟨stored', same⟩ := exists_map_eq (mem_putHistories before batch)
  have holds' : { s with histories := Storage.putHistories s.histories batch }.Holds
      stored' names := ⟨same, holds.names⟩
  refine ⟨stored', holds', fun id => ?_⟩
  -- Both sides are compared as they are stored.
  apply Option.map_injective encodeHistory_injective
  rw [← holds'.find?, find?_putHistories s.histories distinct, holds.find?]
  cases batch.lookup id <;> rfl

theorem Holds.insertName (holds : s.Holds stored names) (name : String) :
    ∃ names', { s with whitelist := s.whitelist.insert (Text.Utf8.encode name) [] }.Holds
        stored names' ∧
      ∀ other, other ∈ names' ↔ other = name ∨ other ∈ names := by
  have each : ∀ entry ∈ (s.whitelist.insert (Text.Utf8.encode name) []).entries,
      ∃ a, nameEntry a = entry := by
    intro entry member
    rcases mem_insertEntry member with rfl | old
    · exact ⟨name, rfl⟩
    · rw [holds.names] at old
      exact (List.mem_map.mp old).imp fun _ found => found.2
  obtain ⟨names', same⟩ := exists_map_eq each
  have holds' : { s with whitelist := s.whitelist.insert (Text.Utf8.encode name) [] }.Holds
      stored names' := ⟨holds.histories, same⟩
  refine ⟨names', holds', fun other => ?_⟩
  rw [← holds'.contains_name, ← holds.contains_name, Tree.contains, Tree.find?_insert,
    Tree.contains]
  by_cases equal : other = name
  · simp [equal]
  · rw [if_neg (mt Text.Utf8.encode_injective equal)]
    simp [equal]

theorem Holds.eraseName (holds : s.Holds stored names) (name : String) :
    { s with whitelist := s.whitelist.erase (Text.Utf8.encode name) }.Holds stored
      (names.filter (· ≠ name)) := by
  refine ⟨holds.histories, ?_⟩
  change s.whitelist.entries.filter _ = _
  rw [holds.names, List.filter_map]
  congr 1
  refine List.filter_congr fun other _ => ?_
  have encoded : Text.Utf8.encode other = Text.Utf8.encode name ↔ other = name :=
    ⟨fun equal => Text.Utf8.encode_injective equal, congrArg _⟩
  simp [nameEntry, encoded]

end

end Storage

end CostWatch

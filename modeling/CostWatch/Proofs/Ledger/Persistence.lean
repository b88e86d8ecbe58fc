import CostWatch.Proofs.Cost.Caches

/-!
What is written to disk is loaded as it was written: the histories of methods, in whatever batches
they come, and the caches.
-/

set_option autoImplicit false

namespace CostWatch

namespace Storage

/-- Writes a batch of histories; nothing changes if that fails. -/
def afterWrite (s : Storage) (batch : StagedHistories) (attempt : Attempt) : Storage :=
  match s.storeHistories batch attempt with
  | .ok next => next
  | .error _ => s

def afterWrites (s : Storage) (writes : List (StagedHistories × Attempt)) : Storage :=
  writes.foldl (fun s write => s.afterWrite write.1 write.2) s

def written (writes : List (StagedHistories × Attempt)) : StagedHistories :=
  (writes.filter (·.2 = .succeeds)).flatMap (·.1)

theorem afterWrites_eq (s : Storage) (writes : List (StagedHistories × Attempt)) :
    s.afterWrites writes =
      { s with histories := putHistories s.histories (written writes) } := by
  induction writes generalizing s with
  | nil => rfl
  | cons write rest ih =>
    obtain ⟨batch, attempt⟩ := write
    have next : s.afterWrites ((batch, attempt) :: rest) =
        (s.afterWrite batch attempt).afterWrites rest := rfl
    rw [next, ih]
    cases attempt with
    | fails reason => rfl
    | succeeds =>
      have more : written ((batch, .succeeds) :: rest) = batch ++ written rest := rfl
      rw [more, putHistories, putHistories, List.foldl_append]
      rfl

section
variable {s : Storage} {stored : List (MethodId × History)} {names : List String}

theorem Holds.putAll (holds : s.Holds stored names) (entries : StagedHistories) :
    ∃ stored', { s with histories := Storage.putHistories s.histories entries }.Holds
        stored' names ∧
      ∀ id, stored'.lookup id = (entries.reverse.lookup id).or (stored.lookup id) := by
  induction entries generalizing s stored with
  | nil => exact ⟨stored, holds, fun _ => rfl⟩
  | cons entry rest ih =>
    have single : ([entry].map (·.1)).Nodup := List.nodup_singleton entry.1
    obtain ⟨between, holdsFirst, afterFirst⟩ := holds.putHistories single
    obtain ⟨stored', holdsAll, afterAll⟩ := ih holdsFirst
    refine ⟨stored', holdsAll, fun id => ?_⟩
    rw [afterAll, afterFirst, List.reverse_cons, List.lookup_append, Option.or_assoc]

theorem Holds.increasing (holds : s.Holds stored names) :
    stored.Pairwise fun e f => Text.Utf8.encode e.1.key < Text.Utf8.encode f.1.key := by
  have increasing := s.histories.increasing
  rw [holds.histories, List.pairwise_map] at increasing
  exact increasing

end

end Storage

theorem Cache.load?_store {folder : Folder} {name : String} {documents : List CachedDocument}
    (stored : (store folder name documents).1 = none) :
    load? (store folder name documents).2 name = some documents :=
  load?_of_read (Folder.read_write stored)

/-- After any sequence of batches of which some were not written, the histories are loaded in the
order of the bytes of their keys, one for each method of which there was one in a batch that was
written, and it is the last one that was. A cache that has been stored is loaded as it was. -/
theorem persisted_round_trip :
    (∀ writes : List (StagedHistories × Attempt), ∃ stored,
      (Storage.empty.afterWrites writes).loadHistories = .ok stored ∧
        stored.Pairwise (fun e f => Text.Utf8.encode e.1.key < Text.Utf8.encode f.1.key) ∧
        ∀ id h, (id, h) ∈ stored ↔ (Storage.written writes).reverse.lookup id = some h) ∧
      ∀ (folder : Folder) (name : String) (documents : List CachedDocument),
        (Cache.store folder name documents).1 = none →
          Cache.load? (Cache.store folder name documents).2 name = some documents := by
  refine ⟨fun writes => ?_, fun folder name documents stored => Cache.load?_store stored⟩
  have none : Storage.empty.Holds [] [] := ⟨rfl, rfl⟩
  obtain ⟨stored, holds, found⟩ := none.putAll (Storage.written writes)
  rw [← Storage.afterWrites_eq] at holds
  refine ⟨stored, holds.loadHistories, holds.increasing, fun id h => ?_⟩
  rw [Table.mem_iff_lookup holds.distinct.1, found]
  simp

namespace Sample

def recordAt (method : String) (line : UInt32) (timestamp : Option String) : Record :=
  ⟨⟨"/work/A.java:" ++ method⟩, method, ⟨"A.java", line⟩, ⟨"0", some 0, "O(1)"⟩,
    ⟨"n \u00b7 \"m\"\n", none, "O(?)"⟩, timestamp⟩

def writes : List (StagedHistories × Attempt) :=
  [([(⟨"/work/A.java:g"⟩, [recordAt "g" 3 none]),
      (⟨"/work/A.java:f"⟩, [recordAt "f" 2 none])], .succeeds),
    ([(⟨"/work/A.java:h"⟩, [recordAt "h" 9 none])], .fails "disk full"),
    ([(⟨"/work/A.java:f"⟩, [recordAt "f" 5 (some "now"), recordAt "f" 2 none])], .succeeds)]

end Sample

theorem persisted_round_trip_overwritten :
    ∃ stored, (Storage.empty.afterWrites Sample.writes).loadHistories = .ok stored ∧
      (⟨"/work/A.java:f"⟩, [Sample.recordAt "f" 5 (some "now"), Sample.recordAt "f" 2 none]) ∈
        stored ∧
      (⟨"/work/A.java:g"⟩, [Sample.recordAt "g" 3 none]) ∈ stored ∧
      (∀ h, (⟨"/work/A.java:h"⟩, h) ∉ stored) ∧
      Cache.load? (Cache.store .absent Cache.projectName
        [⟨⟨"/work/A.java"⟩, [Sample.recordAt "f" 2 none]⟩]).2 Cache.projectName =
          some [⟨⟨"/work/A.java"⟩, [Sample.recordAt "f" 2 none]⟩] := by
  obtain ⟨histories, caches⟩ := persisted_round_trip
  obtain ⟨stored, loaded, _, found⟩ := histories Sample.writes
  refine ⟨stored, loaded, (found _ _).mpr (by decide), (found _ _).mpr (by decide), ?_,
    caches _ _ _ (by decide +kernel)⟩
  intro h member
  have last := (found _ _).mp member
  have none : (Storage.written Sample.writes).reverse.lookup ⟨"/work/A.java:h"⟩ = none := by decide
  cases none.symm.trans last

end CostWatch

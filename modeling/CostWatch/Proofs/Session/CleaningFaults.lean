import CostWatch.Proofs.Session.Run
import CostWatch.Proofs.Session.Step

/-!
Cleanings that fail.

Cleaning removes the caches, then the output of the analyzer, and then forgets the costs at hand. A
fault stops it where it stands, and what was removed by then stays removed: a cleaning that could
not remove the output has lost the caches.
-/

set_option autoImplicit false

namespace CostWatch

def Folder.HasFile (folder : Folder) : Prop :=
  ∃ path bytes, folder.read path = .ok bytes

def Folder.SameFiles (folder other : Folder) : Prop :=
  ∀ path bytes, folder.read path = .ok bytes ↔ other.read path = .ok bytes

theorem Folder.read_absent_ne_ok (path : String) (bytes : List UInt8) :
    Folder.absent.read path ≠ .ok bytes := by
  intro read
  cases read

theorem Folder.sameFiles_absent_iff (folder : Folder) :
    Folder.absent.SameFiles folder ↔ ¬ folder.HasFile := by
  constructor
  · rintro same ⟨path, bytes, read⟩
    exact read_absent_ne_ok path bytes ((same path bytes).mpr read)
  · intro empty path bytes
    exact iff_of_false (read_absent_ne_ok path bytes) fun read => empty ⟨path, bytes, read⟩

theorem Folder.remove_eq_error_iff {folder : Folder} {refusal : Option IoFault} {fault : IoFault} :
    folder.remove refusal = .error fault ↔ folder.removalFault? refusal = some fault := by
  unfold remove
  cases folder.removalFault? refusal with
  | none => simp
  | some met => simp

theorem Folder.remove_eq_ok {folder : Folder} {refusal : Option IoFault}
    (free : folder.removalFault? refusal = none) :
    folder.remove refusal = .ok (folder.isThere, .absent) := by
  unfold remove
  rw [free]

namespace Session
variable {s t : Session} {c : Circumstances} {f : Failure}

/-- Where a cleaning fails, with the failure and the session afterwards. -/
inductive CleaningFails (s : Session) (c : Circumstances) : Failure → Session → Prop where
  | busy : s.isBusy = true → CleaningFails s c .busy s
  | cacheStays {fault : IoFault} : s.isBusy = false →
      s.cache.removalFault? c.cacheRemoval = some fault → CleaningFails s c (.io fault) s
  | outputStays {fault : IoFault} : s.isBusy = false →
      s.cache.removalFault? c.cacheRemoval = none →
      s.output.removalFault? c.outputRemoval = some fault →
      CleaningFails s c (.io fault) { s with cache := .absent }

theorem cleanOutput_busy (busy : s.isBusy = true) : s.cleanOutput c = (.error .busy, s) := by
  simp only [cleanOutput, ensureIdle, busy, if_true, require, refuse]

theorem cleanOutput_cacheStays {fault : IoFault} (idle : s.isBusy = false)
    (stays : s.cache.removalFault? c.cacheRemoval = some fault) :
    s.cleanOutput c = (.error (.io fault), s) := by
  have refused := Folder.remove_eq_error_iff.mpr stays
  simp only [cleanOutput, ensureIdle, idle, Bool.false_eq_true, if_false, require, refused,
    Except.mapError, refuse]

theorem cleanOutput_outputStays {fault : IoFault} (idle : s.isBusy = false)
    (gone : s.cache.removalFault? c.cacheRemoval = none)
    (stays : s.output.removalFault? c.outputRemoval = some fault) :
    s.cleanOutput c = (.error (.io fault), { s with cache := .absent }) := by
  have removed := Folder.remove_eq_ok gone
  have refused := Folder.remove_eq_error_iff.mpr stays
  simp only [cleanOutput, ensureIdle, idle, Bool.false_eq_true, if_false, require, removed, refused,
    Except.mapError, refuse]

theorem cleanOutput_succeeds (idle : s.isBusy = false)
    (cacheGone : s.cache.removalFault? c.cacheRemoval = none)
    (outputGone : s.output.removalFault? c.outputRemoval = none) :
    ∃ outcome, (s.cleanOutput c).1 = .ok outcome := by
  have first := Folder.remove_eq_ok cacheGone
  have second := Folder.remove_eq_ok outputGone
  simp only [cleanOutput, ensureIdle, idle, Bool.false_eq_true, if_false, require, first, second,
    Except.mapError]
  split <;> exact ⟨_, rfl⟩

theorem cleanOutput_eq_error_iff : s.cleanOutput c = (.error f, t) ↔ s.CleaningFails c f t := by
  constructor
  · intro failed
    cases busy : s.isBusy with
    | true =>
      rw [cleanOutput_busy busy] at failed
      cases failed
      exact .busy busy
    | false =>
      cases cache : s.cache.removalFault? c.cacheRemoval with
      | some fault =>
        rw [cleanOutput_cacheStays busy cache] at failed
        cases failed
        exact .cacheStays busy cache
      | none =>
        cases output : s.output.removalFault? c.outputRemoval with
        | some fault =>
          rw [cleanOutput_outputStays busy cache output] at failed
          cases failed
          exact .outputStays busy cache output
        | none =>
          obtain ⟨outcome, succeeds⟩ := cleanOutput_succeeds busy cache output
          rw [failed] at succeeds
          cases succeeds
  · intro fails
    cases fails with
    | busy busy => exact cleanOutput_busy busy
    | cacheStays idle stays => exact cleanOutput_cacheStays idle stays
    | outputStays idle gone stays => exact cleanOutput_outputStays idle gone stays

/-- A cleaning that fails leaves the output of the analyzer and all of the session in memory as they
are. The caches are left as they are exactly if an analysis is running, if their folder could not be
removed, or if there was no file in it. -/
theorem failed_cleaning_keeps_iff (failed : s.cleanOutput c = (.error f, t)) :
    t = { s with cache := t.cache } ∧
      (t.cache.SameFiles s.cache ↔
        s.isBusy = true ∨ (s.cache.removalFault? c.cacheRemoval).isSome = true ∨
          ¬ s.cache.HasFile) := by
  have same : s.cache.SameFiles s.cache := fun _ _ => Iff.rfl
  cases cleanOutput_eq_error_iff.mp failed with
  | busy busy => exact ⟨rfl, iff_of_true same (.inl busy)⟩
  | cacheStays idle stays =>
    exact ⟨rfl, iff_of_true same (.inr (.inl (Option.isSome_of_eq_some stays)))⟩
  | outputStays idle gone stays =>
    refine ⟨rfl, ?_⟩
    rw [Folder.sameFiles_absent_iff, idle, gone]
    simp

end Session

namespace Sample

def obstructed : Session :=
  { session with output := .plainFile }

def cached : List Occurrence :=
  [completion (analysis 1 (.enable .file)), request .enableForFile,
    request (.documentActivated document "f")]

end Sample

theorem failed_cleaning_keeps_cache :
    ∃ t, (traced Sample.obstructed Sample.cached).2.cleanOutput
        { Sample.circumstances with cacheRemoval := some .permissionDenied } =
          (.error (.io .permissionDenied), t) ∧
      t.cache.SameFiles (traced Sample.obstructed Sample.cached).2.cache := by
  obtain ⟨s, isEnd⟩ : ∃ s, s = (traced Sample.obstructed Sample.cached).2 := ⟨_, rfl⟩
  obtain ⟨c, isCircumstances⟩ : ∃ c : Circumstances,
    c = { Sample.circumstances with cacheRemoval := some .permissionDenied } := ⟨_, rfl⟩
  have facts : s.isBusy = false ∧
      s.cache.removalFault? c.cacheRemoval = some .permissionDenied := by
    rw [isEnd, isCircumstances]
    decide +kernel
  have failed := Session.cleanOutput_cacheStays facts.1 facts.2
  rw [← isEnd, ← isCircumstances]
  refine ⟨s, failed, ?_⟩
  exact (Session.failed_cleaning_keeps_iff failed).2.mpr (.inr (.inl (by rw [facts.2]; rfl)))

/-- A document is analysed, which writes a cache. Then a cleaning fails, since the output directory
is a plain file, and the cache can be loaded no more. -/
theorem failed_cleaning_loses_cache :
    ∃ history s t fault, Run Sample.obstructed history s ∧
      s.cleanOutput Sample.circumstances = (.error (.io fault), t) ∧
      Cache.load? s.cache (Cache.fileName Sample.document.stem) = some [⟨Sample.document, []⟩] ∧
      Cache.load? t.cache (Cache.fileName Sample.document.stem) = none := by
  obtain ⟨past, isPast⟩ : ∃ past, past = traced Sample.obstructed Sample.cached := ⟨_, rfl⟩
  have run : Run Sample.obstructed past.1 past.2 := by
    rw [isPast]
    exact run_traced (by decide +kernel)
  have facts : past.2.isBusy = false ∧
      past.2.cache.removalFault? Sample.circumstances.cacheRemoval = none ∧
      past.2.output.removalFault? Sample.circumstances.outputRemoval = some .notADirectory ∧
      Cache.load? past.2.cache (Cache.fileName Sample.document.stem) =
        some [⟨Sample.document, []⟩] := by
    rw [isPast]
    decide +kernel
  obtain ⟨idle, gone, stays, loads⟩ := facts
  exact ⟨past.1, past.2, { past.2 with cache := .absent }, .notADirectory, run,
    Session.cleanOutput_outputStays idle gone stays, loads, rfl⟩

end CostWatch

import CostWatch.Proofs.Session.Modes
import CostWatch.Proofs.Session.Outputs
import CostWatch.Proofs.Session.Reports

/-!
That the costs of a cache are those of the analysis that has written it.

A cache may be loaded by the session that wrote it or by a later one, for the project or for a file.
All files of one stem share a cache, which holds the costs of the file that was analysed last. For
another file of the stem it is of no use, and that file is analysed.
-/

set_option autoImplicit false

namespace CostWatch

/-! Caches over a run -/

/-- An episode leaves a cache alone: it is not written again, and neither the session nor anybody
else takes it away. -/
structure Episode.Spares (e : Episode) (name : String) : Prop where
  notWritten : ∀ documents, e.caches? ≠ some (name, documents)
  notRemoved : ∀ c, e.occurrence = .request .cleanOutput c → e.next.cache = e.session.cache
  untouched : ∀ cache output, e.occurrence = .folders cache output →
    cache.read name = e.session.cache.read name

theorem caches?_of_taken {s : Session} {a : Analysis} {result : Except Failure (List UInt8)}
    {c : Circumstances} {records : List Record} (taken : s.takesUp? a result c = some records) :
    (Episode.mk s (.completion a result c)).caches? =
      some (Session.cacheName a, s.byDocument a records) :=
  congrArg (Option.map fun records => (Session.cacheName a, s.byDocument a records)) taken

theorem Session.direct_of_isJava {a : Analysis} (java : ∀ d, a.document = some d → d.isJava = true) :
    Cache.Direct (cacheName a) := by
  unfold cacheName
  split
  · next d analysed => exact Cache.direct_of_isJava (java d analysed)
  · exact Cache.direct_projectName

section
variable {start : Session} {history : List Episode} {e : Episode} {name : String}
  {bytes : List UInt8}

theorem direct_cacheName {s : Session} (run : Run start history s) {a : Analysis}
    (handed : a ∈ handedOut history) : Cache.Direct (Session.cacheName a) :=
  Session.direct_of_isJava fun _ analysed => (fileJob_of_handedOut run handed analysed).1

theorem read_of_spares (run : Run start history e.session) (follows : e.occurrence.Follows history)
    (direct : Cache.Direct name) (spares : e.Spares name)
    (holds : e.session.cache.read name = .ok bytes) : e.next.cache.read name = .ok bytes := by
  obtain ⟨s, o⟩ := e
  obtain ⟨notWritten, notRemoved, untouched⟩ := spares
  have step := s.step_meet o
  have after : (Episode.mk s o).next = (s.meet o).2 := rfl
  rw [after] at notRemoved ⊢
  generalize (s.meet o).1 = answer at step
  generalize (s.meet o).2 = next at step notRemoved ⊢
  cases step with
  | cleanedInPart | cleaned =>
    rw [notRemoved _ rfl]
    exact holds
  | @takenUp a result c records ids ledger message running taken recorded =>
    -- What is written is another cache, and it stands at another place.
    have other : name ≠ Session.cacheName a := by
      rintro rfl
      exact notWritten _ (caches?_of_taken taken)
    exact (Cache.read_store_other (direct_cacheName run follows) direct other bytes).mpr holds
  | folders => exact (untouched _ _ rfl).trans holds
  | _ => exact holds

theorem read_since {since earlier : List Episode} {t : Session}
    (run : Run start (since ++ earlier) t) (direct : Cache.Direct name)
    (spares : ∀ e ∈ since, e.Spares name)
    (holds : ∀ s, Run start earlier s → s.cache.read name = .ok bytes) :
    t.cache.read name = .ok bytes := by
  induction since generalizing t with
  | nil => exact holds t run
  | cons e since ih =>
    obtain ⟨now, before⟩ := List.forall_mem_cons.mp spares
    cases run with
    | @next _ s o run follows =>
      exact read_of_spares (e := ⟨s, o⟩) run follows direct now (ih run before)

end

/-- The states in which the cache of a name is still the one that an episode has written: of the same
session, or of a later one that finds the cache as it is in such a state. -/
inductive Later (name : String) (f : Episode) : Session → Prop where
  | same {config : Config} {directory : String} {extract : Extractor} {ledger : Ledger}
      {cache output : Folder} {since earlier : List Episode} {t : Session} :
      Run (.new config directory extract ledger cache output) (since ++ f :: earlier) t →
      (∀ e ∈ since, e.Spares name) → Later name f t
  | other {config : Config} {directory : String} {extract : Extractor} {ledger : Ledger}
      {cache output : Folder} {since : List Episode} {t u : Session} :
      Later name f u → cache.read name = u.cache.read name →
      Run (.new config directory extract ledger cache output) since t →
      (∀ e ∈ since, e.Spares name) → Later name f t

section
variable {f : Episode} {t : Session} {a : Analysis} {name : String}
  {documents : List CachedDocument}

theorem taken_of_caches (ended : f.completed = some a) (wrote : f.caches? = some (name, documents)) :
    ∃ records ledger, name = Session.cacheName a ∧ documents = f.session.byDocument a records ∧
      f.next = f.session.settled a records ledger := by
  obtain ⟨s, o⟩ := f
  cases o with
  | completion b result c =>
    cases ended
    obtain ⟨records, taken, same⟩ := Option.map_eq_some_iff.mp wrote
    obtain ⟨rfl, rfl⟩ := Prod.mk.inj same
    obtain ⟨ledger, after⟩ := Session.complete_of_taken taken
    exact ⟨records, ledger, rfl, rfl, after⟩
  | _ => cases wrote

theorem read_of_later (later : Later name f t) (ended : f.completed = some a)
    (wrote : f.caches? = some (name, documents))
    (written : (Cache.store f.session.cache name documents).1 = none) :
    Cache.Direct name ∧ t.cache.read name = .ok (Cache.encode documents) := by
  obtain ⟨records, ledger, isName, isDocuments, after⟩ := taken_of_caches ended wrote
  -- From session to session: each one finds the cache as the one before has left it.
  induction later with
  | same run spares =>
    obtain ⟨before, follows⟩ := run.of_suffix (List.suffix_append _ _)
    have direct : Cache.Direct name := by
      rw [isName]
      exact direct_cacheName before (known_of_follows follows ended)
    refine ⟨direct, read_since run direct spares fun s run => ?_⟩
    cases run with
    | @next _ r o run follows =>
      have cache : (r.meet o).2.cache = (Cache.store r.cache name documents).2 := by
        rw [isName, isDocuments]
        exact congrArg Session.cache after
      rw [cache]
      exact Folder.read_write written
  | @other config directory extract ledger cache output since t u later same run spares ih =>
    obtain ⟨direct, holds⟩ := ih
    rw [← List.append_nil since] at run
    refine ⟨direct, read_since run direct spares fun s run => ?_⟩
    cases run with
    | start => exact same.trans holds

/-! Costs of the cache -/

/-- A mode is enabled with the costs that an analysis has installed, for the documents that the
analysis covers. No analysis is started, and the histories stay as they are. -/
structure Reloads (f : Episode) (a : Analysis) (t : Session) (mode : Mode)
    (answer : Session.Answer) : Prop where
  served : ∃ events, answer.1 = .ok (.ofEvents events)
  enabled : answer.2.mode = mode
  covered : ∀ d, f.Analyses d a → ∃ records, f.next.store.get? d = some records ∧
    answer.2.store.get? d = some records
  others : ∀ d, ¬f.Analyses d a → answer.2.store.get? d = t.store.get? d
  histories : answer.2.ledger = t.ledger

theorem isSome_recordsIn? (d : Document) : (recordsIn? documents d).isSome = covers documents d := by
  rw [recordsIn?, Option.isSome_map, List.isSome_find?]
  rfl

theorem covers_iff_analyses (ended : f.completed = some a)
    (wrote : f.caches? = some (name, documents)) (d : Document) :
    covers documents d = true ↔ f.Analyses d a := by
  obtain ⟨b, _, covered, only⟩ := analysis_of_caches wrote
  rw [covered]
  constructor
  · rintro ⟨result, c, records, same, taken, own⟩
    rw [Episode.completed, same] at ended
    cases ended
    exact ⟨result, c, records, same, taken, own⟩
  · intro analyses
    exact only d a analyses ▸ analyses

theorem reloads_of_loads {r : Request} {loaded : List CachedDocument} {mode : Mode}
    (ended : f.completed = some a) (wrote : f.caches? = some (name, documents))
    (loads : t.loads? r = some loaded) (c : Circumstances) (enabled : (t.handle r c).2.mode = mode)
    (increasing : Increasing loaded)
    (same : ∀ d, recordsIn? loaded d = recordsIn? documents d) :
    Reloads f a t mode (t.handle r c) := by
  obtain ⟨build, message, after, answered⟩ := Session.handle_eq_of_loads loads c
  obtain ⟨records, ledger, _, isDocuments, installed⟩ := taken_of_caches ended wrote
  have fromAnalysis (d : Document) :
      f.next.store.get? d = (recordsIn? documents d).or (f.session.store.get? d) := by
    rw [installed, isDocuments]
    exact Store.get?_setAll (f.session.increasing_byDocument a records) _ d
  have fromCache (d : Document) :
      (t.handle r c).2.store.get? d = (recordsIn? documents d).or (t.store.get? d) := by
    rw [after, ← same]
    exact Store.get?_setAll increasing _ d
  constructor
  case served => exact ⟨_, answered⟩
  case enabled => exact enabled
  case covered =>
    intro d analyses
    rw [← covers_iff_analyses ended wrote, ← isSome_recordsIn?] at analyses
    obtain ⟨list, found⟩ := Option.isSome_iff_exists.mp analyses
    exact ⟨list, by rw [fromAnalysis, found]; rfl, by rw [fromCache, found]; rfl⟩
  case others =>
    intro d spared
    rw [← covers_iff_analyses ended wrote, ← isSome_recordsIn?, Option.not_isSome_iff_eq_none]
      at spared
    rw [fromCache, spared]
    rfl
  case histories =>
    rw [after]
    rfl

theorem enableForFile_of_uncovered {d : Document} (idle : t.running = none) (other : t.mode ≠ .file)
    (java : t.activeJava = .ok d)
    (stored : Cache.load? t.cache (Cache.fileName d.stem) = some documents)
    (uncovered : covers documents d = false) :
    t.enableForFile = Session.answer (t.start (.enable .file) (some d) (t.fileJob d)) := by
  have none : documents.find? (·.document = d) = none := by
    rw [← Option.not_isSome_iff_eq_none, List.isSome_find?]
    exact Bool.not_eq_true _ ▸ uncovered
  have allowed : t.mode.checkEnable .file = .ok () := if_neg other
  have notBusy : t.ensureIdle = .ok () := by simp [Session.ensureIdle, Session.isBusy, idle]
  unfold Session.enableForFile
  rw [Session.require_ok allowed, Session.require_ok notBusy, Session.require_ok java]
  simp [stored, none]

/-- What an analysis has written into a cache is what is loaded from there, as long as nobody writes
or removes that cache. With the cache of the project, all documents that the analysis covers get the
lists that it has installed. With the cache of a file, that file gets the list that was installed for
it; any other file with the same stem is analysed. -/
theorem cache_reproduces (ended : f.completed = some a)
    (wrote : f.caches? = some (name, documents))
    (written : (Cache.store f.session.cache name documents).1 = none) (later : Later name f t)
    (idle : t.running = none) (c : Circumstances) :
    (a.document = none → ∀ command words, t.mode ≠ .project →
      Session.buildWords command = .ok words →
      Reloads f a t .project (t.handle (.enableForProject command) c)) ∧
    ∀ x d, a.document = some x → t.mode ≠ .file → t.activeJava = .ok d →
      (d = x → Reloads f a t .file (t.handle .enableForFile c)) ∧
      (d ≠ x → d.stem = x.stem → t.handle .enableForFile c =
        Session.answer (t.start (.enable .file) (some d) (t.fileJob d))) := by
  obtain ⟨records, ledger, isName, isDocuments, installed⟩ := taken_of_caches ended wrote
  obtain ⟨direct, holds⟩ := read_of_later later ended wrote written
  have stored := Cache.load?_of_read holds
  have increasing : Increasing documents := by
    rw [isDocuments]
    exact f.session.increasing_byDocument a records
  constructor
  · intro project command words other split
    rw [isName, Session.cacheName, project] at stored
    have loads := Session.loads?_project other idle split stored
    exact reloads_of_loads ended wrote loads c (Session.mode_of_loads loads c) increasing fun _ => rfl
  · intro x d file other java
    -- The analysis of a file covers that file and nothing else.
    have only : ∀ e, covers documents e = true ↔ e = x := by
      intro e
      rw [isDocuments, Session.covers_byDocument, file]
      simp only [f.session.reportedDocument_of_document file, Option.some.injEq]
      constructor
      · rintro (same | ⟨_, _, same⟩) <;> exact same.symm
      · exact fun same => .inl same.symm
    rw [isName, Session.cacheName, file] at stored
    constructor
    · rintro rfl
      have covered := (only d).mpr rfl
      obtain ⟨loaded, loads⟩ :=
        Option.isSome_iff_exists.mp (Session.loads?_file other idle java stored covered)
      obtain ⟨document, all, entry, active, read, member, own, rfl⟩ :=
        Session.loads?_enableForFile loads
      cases java.symm.trans active
      cases stored.symm.trans read
      -- So its entry alone is as good as the whole cache.
      refine reloads_of_loads ended wrote loads c (Session.mode_of_loads loads c)
        (List.pairwise_singleton _ _) fun e => ?_
      rw [recordsIn?_cons, own]
      by_cases same : d = e
      · rw [if_pos same, ← same, ← own, recordsIn?_of_mem increasing member]
      · have absent : recordsIn? documents e = none := by
          rw [← Option.not_isSome_iff_eq_none, isSome_recordsIn?, only]
          exact Ne.symm same
        rw [if_neg same, absent]
        rfl
    · intro different stems
      dsimp only at stored
      rw [← stems] at stored
      refine enableForFile_of_uncovered idle other java stored ?_
      rw [Bool.eq_false_iff, ne_eq, only]
      exact different

end

namespace Sample

def later (cache : Folder) : Session :=
  .new { workspace := { root := "/work" } } "/" extract (.new none) cache .absent

end Sample

theorem cache_reproduces_later :
    ∃ f t, Later Cache.projectName f t ∧
      f.Analyses Sample.document (Sample.projectAnalysis 1 (.enable .project)) ∧
      Reloads f (Sample.projectAnalysis 1 (.enable .project)) t .project
        (t.handle (.enableForProject "make") Sample.circumstances) := by
  let ended : Occurrence := .completion (Sample.projectAnalysis 1 (.enable .project))
    (.ok Sample.report) Sample.circumstances
  obtain ⟨past, isPast⟩ :
    ∃ past, past = traced Sample.session [Sample.request (.enableForProject "make")] := ⟨_, rfl⟩
  have before : Run Sample.session past.1 past.2 := by
    rw [isPast]
    exact run_traced (by decide +kernel)
  have follows : ended.Follows past.1 := by
    rw [isPast]
    decide +kernel
  obtain ⟨f, isEpisode⟩ : ∃ f, f = Episode.mk past.2 ended := ⟨_, rfl⟩
  have facts : (f.caches?.any fun cached => cached.1 = Cache.projectName &&
      (Cache.store f.session.cache cached.1 cached.2).1.isNone &&
      covers cached.2 Sample.document) = true := by
    rw [isEpisode, isPast]
    decide +kernel
  obtain ⟨⟨name, documents⟩, wrote, shown⟩ := (Option.any_eq_true _ _).mp facts
  simp only [Bool.and_eq_true, decide_eq_true_eq, Option.isNone_iff_eq_none] at shown
  obtain ⟨⟨rfl, written⟩, covered⟩ := shown
  have run : Run Sample.session ([] ++ f :: past.1) (past.2.meet ended).2 := by
    rw [isEpisode]
    exact before.next follows
  have same : Later Cache.projectName f (past.2.meet ended).2 := .same run (by simp)
  have later : Later Cache.projectName f (Sample.later (past.2.meet ended).2.cache) :=
    .other same rfl .start (by simp)
  have completes : f.completed = some (Sample.projectAnalysis 1 (.enable .project)) := by
    rw [isEpisode]
    rfl
  refine ⟨f, _, later, (covers_iff_analyses completes wrote _).mp covered, ?_⟩
  have split : (Session.buildWords "make").toOption = some ["make"] := by decide +kernel
  exact (cache_reproduces completes wrote written later rfl Sample.circumstances).1 rfl "make" _
    Mode.noConfusion (Session.toOption_eq_some_iff.mp split)

end CostWatch

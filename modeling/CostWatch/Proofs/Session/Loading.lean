import CostWatch.Proofs.Cost.Caches
import CostWatch.Proofs.Session.Costs

/-!
What becomes of stale documents when a mode is enabled with the costs of a cache.

The costs of a cache are those of the analysis that wrote it, and a document that has costs there is
not stale any more, however much it was changed since. Of the stale documents, only those stay stale
which that analysis did not cover.
-/

set_option autoImplicit false

namespace CostWatch

namespace Session

def cacheFor? (s : Session) : Request → Option String
  | .enableForFile => s.activeJava.toOption.map fun d => Cache.fileName d.stem
  | .enableForProject _ => some Cache.projectName
  | _ => none

/-- A document is reported as stale: by the session, and by the decorations of the document. -/
def ReportsStale (s : Session) (events : List Event) (d : Document) : Prop :=
  s.isStale d = true ∧ ∀ stale shown, Event.decorations d stale shown ∈ events → stale = true

variable {s : Session} {d : Document}

theorem stale_of_decorations {stale : Bool} {shown : List Decoration}
    (sent : Event.decorations d stale shown ∈ s.decorations) : stale = s.isStale d := by
  obtain ⟨a, ds, _, _, same⟩ := mem_decorations.mp sent
  cases same
  rfl

theorem reportsStale_iff {message : String} :
    s.ReportsStale (s.decorations ++ [.info message]) d ↔ s.isStale d = true := by
  constructor
  · intro reports
    exact reports.1
  · intro stale
    refine ⟨stale, ?_⟩
    intro flag shown sent
    rcases List.mem_append.mp sent with decorations | other
    · exact (stale_of_decorations decorations).trans stale
    · cases List.mem_singleton.mp other

/-! Caches that are loaded -/

theorem loads?_enableForFile {documents : List CachedDocument}
    (loads : s.loads? .enableForFile = some documents) :
    ∃ document all entry, s.activeJava = .ok document ∧
      Cache.load? s.cache (Cache.fileName document.stem) = some all ∧ entry ∈ all ∧
      entry.document = document ∧ documents = [entry] := by
  simp only [loads?, Option.bind_eq_bind, Option.bind_eq_some_iff, Option.map_eq_some_iff] at loads
  obtain ⟨_, _, _, _, document, active, all, loaded, entry, found, rfl⟩ := loads
  cases java : s.activeJava with
  | error f =>
    rw [java] at active
    cases active
  | ok other =>
    rw [java] at active
    cases active
    exact ⟨document, all, entry, rfl, loaded, List.mem_of_find?_eq_some found,
      by simpa using List.find?_some found, rfl⟩

theorem loads?_enableForProject {command : String} {documents : List CachedDocument}
    (loads : s.loads? (.enableForProject command) = some documents) :
    Cache.load? s.cache Cache.projectName = some documents := by
  simp only [loads?, Option.bind_eq_bind, Option.bind_eq_some_iff] at loads
  obtain ⟨_, _, _, _, _, _, loaded⟩ := loads
  exact loaded

theorem handle_eq_of_loads {r : Request} {documents : List CachedDocument}
    (loads : s.loads? r = some documents) (c : Circumstances) :
    ∃ build message, (s.handle r c).2 = { s with buildCommand := build }.loaded (match r with
        | .enableForFile => .file
        | _ => .project) documents ∧
      (s.handle r c).1 = .ok (.ofEvents ((s.handle r c).2.decorations ++ [.info message])) := by
  have step := s.step_handle r c
  generalize (s.handle r c).1 = answer at step
  generalize (s.handle r c).2 = next at step
  cases step with
  | refused asks notLoaded => cases notLoaded.symm.trans loads
  | loadedFile idle also =>
    cases also.symm.trans loads
    exact ⟨s.buildCommand, _, rfl, rfl⟩
  | @loadedProject command build documents c message idle words also =>
    cases also.symm.trans loads
    exact ⟨some build, _, rfl, rfl⟩
  | started idle notLoaded starts => cases notLoaded.symm.trans loads
  | exempted exempts book =>
    cases r with
    | whitelistAdd | whitelistRemove => cases loads
    | _ => cases exempts
  | opened opens enabled =>
    cases r with
    | openDetail | openOverview => cases loads
    | _ => cases opens
  | _ => cases loads

theorem handle_of_loads {r : Request} {documents : List CachedDocument}
    (loads : s.loads? r = some documents) (c : Circumstances) :
    (s.handle r c).2.stale = s.stale.filter (fun d => !covers documents d) ∧
      ∃ message, (s.handle r c).1 =
        .ok (.ofEvents ((s.handle r c).2.decorations ++ [.info message])) := by
  obtain ⟨build, message, after, answered⟩ := handle_eq_of_loads loads c
  exact ⟨congrArg Session.stale after, message, answered⟩

end Session

def Episode.caches? (e : Episode) : Option (String × List CachedDocument) :=
  match e.occurrence with
  | .completion a result c => (e.session.takesUp? a result c).map fun records =>
    (Session.cacheName a, e.session.byDocument a records)
  | _ => none

section
variable {f : Episode} {s : Session} {d : Document} {name : String}
  {documents loaded : List CachedDocument}

theorem analysis_of_caches (wrote : f.caches? = some (name, documents)) :
    ∃ a, name = Session.cacheName a ∧ (∀ d, covers documents d = true ↔ f.Analyses d a) ∧
      (∀ d b, f.Analyses d b → b = a) := by
  obtain ⟨t, o⟩ := f
  cases o with
  | request r c => cases wrote
  | folders cache output => cases wrote
  | completion a result c =>
    obtain ⟨records, taken, same⟩ := Option.map_eq_some_iff.mp wrote
    cases same
    refine ⟨a, rfl, ?_, ?_⟩
    · intro d
      rw [Session.covers_byDocument]
      constructor
      · intro covered
        exact ⟨result, c, records, rfl, taken, covered⟩
      · rintro ⟨_, _, _, same, also, covered⟩
        cases same
        cases taken.symm.trans also
        exact covered
    · rintro d b ⟨_, _, _, same, _⟩
      cases same
      rfl

theorem document_of_analyses {a : Analysis} {document : Document}
    (analysed : a.document = some document) (analyses : f.Analyses d a) : d = document := by
  obtain ⟨_, _, _, _, _, own | ⟨r, _, own⟩⟩ := analyses
  · exact Option.some.inj (own.symm.trans analysed)
  · exact own.symm.trans (Session.reportedDocument_of_document _ analysed _)

/-- What is loaded from a cache has an entry for a document if the analysis that wrote the cache
covered the document. -/
theorem covers_loaded {r : Request} (wrote : f.caches? = some (name, documents))
    (reads : s.cacheFor? r = some name) (holds : s.cache.read name = .ok (Cache.encode documents))
    (loads : s.loads? r = some loaded) : covers loaded d = true ↔ ∃ a, f.Analyses d a := by
  obtain ⟨a, isName, covered, only⟩ := analysis_of_caches wrote
  have written := Cache.load?_of_read holds
  have all : covers documents d = true ↔ ∃ a, f.Analyses d a := by
    rw [covered]
    constructor
    · intro analyses
      exact ⟨a, analyses⟩
    · rintro ⟨b, analyses⟩
      cases only d b analyses
      exact analyses
  cases r with
  | enableForProject command =>
    cases reads
    cases (Session.loads?_enableForProject loads).symm.trans written
    exact all
  | enableForFile =>
    obtain ⟨document, found, entry, active, read, member, own, rfl⟩ :=
      Session.loads?_enableForFile loads
    rw [Session.cacheFor?, active] at reads
    cases reads
    cases read.symm.trans written
    cases analysed : a.document with
    | none =>
      rw [Session.cacheName, analysed] at isName
      exact absurd isName (Cache.fileName_ne_projectName _)
    | some analysedDocument =>
      -- The cache of a file has entries for that file only, so that nothing of it is left out.
      have entries {other : Document} (listed : covers documents other = true) :
          other = analysedDocument :=
        document_of_analyses analysed ((covered other).mp listed)
      have here : entry.document = analysedDocument :=
        entries (covers_iff.mpr ⟨entry, member, rfl⟩)
      rw [← all]
      constructor
      · intro listed
        obtain ⟨other, among, same⟩ := covers_iff.mp listed
        cases List.mem_singleton.mp among
        exact covers_iff.mpr ⟨entry, member, same⟩
      · intro listed
        exact covers_iff.mpr ⟨entry, List.mem_singleton_self entry, here.trans (entries listed).symm⟩
  | _ => cases reads

end

/-- A document is marked by a significant save and not cleared since, and a mode is enabled from the
cache that an analysis before the save has written. The document stays stale exactly if that
analysis did not cover it. -/
theorem stale_after_load_iff {config : Config} {directory : String} {extract : Extractor}
    {ledger : Ledger} {cache output : Folder} {after between earlier : List Episode}
    {m f : Episode} {s t : Session} {r : Request} {c : Circumstances} {d : Document}
    {name : String} {documents loaded : List CachedDocument}
    (run : Run (.new config directory extract ledger cache output)
      (⟨s, .request r c⟩ :: (after ++ m :: (between ++ f :: earlier))) t)
    (marks : m.Marks d) (kept : ∀ g ∈ after, ¬g.Clears d)
    (wrote : f.caches? = some (name, documents)) (reads : s.cacheFor? r = some name)
    (holds : s.cache.read name = .ok (Cache.encode documents))
    (loads : s.loads? r = some loaded) :
    s.isStale d = true ∧ ∃ outcome, (s.handle r c).1 = .ok outcome ∧
      (t.ReportsStale outcome.events d ↔ ¬∃ a, f.Analyses d a) := by
  cases run with
  | next before follows =>
    have stale : d ∈ s.stale := (stale_iff_marked_since rfl before).mpr
      ⟨after, m, between ++ f :: earlier, rfl, marks, kept⟩
    obtain ⟨filtered, message, answered⟩ := Session.handle_of_loads loads c
    refine ⟨List.contains_iff_mem.mpr stale, _, answered, Session.reportsStale_iff.trans ?_⟩
    rw [Session.isStale, List.contains_iff_mem, ← covers_loaded wrote reads holds loads]
    have next : d ∈ (s.meet (.request r c)).2.stale ↔
        d ∈ s.stale.filter fun d => !covers loaded d := by
      rw [← filtered]
      rfl
    rw [next, List.mem_filter, Bool.not_eq_true', Bool.not_eq_true]
    exact and_iff_right stale

namespace Sample

def begun : List Occurrence :=
  [request .enableForFile, request (.documentActivated document "class A \x7b")]

def forProject : Occurrence := request (.enableForProject "make")

end Sample

theorem stale_after_load_uncovered :
    ∃ m between f earlier s t outcome,
      Run Sample.session (⟨s, Sample.forProject⟩ :: ([] ++ m :: (between ++ f :: earlier))) t ∧
      m.Marks Sample.document ∧ f.caches? = some (Cache.projectName, []) ∧
      s.loads? (.enableForProject "make") = some [] ∧
      (s.handle (.enableForProject "make") Sample.circumstances).1 = .ok outcome ∧
      t.ReportsStale outcome.events Sample.document := by
  let ended := Sample.completion (Sample.projectAnalysis 2 (.enable .project))
  obtain ⟨past, isPast⟩ : ∃ past, past = traced Sample.session ([Sample.forProject,
    Sample.completion (Sample.analysis 1 (.enable .file))] ++ Sample.begun) := ⟨_, rfl⟩
  have before : Run Sample.session past.1 past.2 := by
    rw [isPast]
    exact run_traced (by decide +kernel)
  have follows : ended.Follows past.1 := by
    rw [isPast]
    decide +kernel
  let f := Episode.mk past.2 ended
  let again := Episode.mk f.next (Sample.request .enableForFile)
  let m := Episode.mk again.next Sample.significantSave
  have run : Run Sample.session (⟨m.next, Sample.forProject⟩ ::
      ([] ++ m :: ([again] ++ f :: past.1))) (Episode.mk m.next Sample.forProject).next :=
    (((before.next follows).next (o := Sample.request .enableForFile) trivial).next
      (o := Sample.significantSave) trivial).next (o := Sample.forProject) trivial
  -- One evaluation of the trace for all that depends on it.
  have facts : again.next.savesSignificantly Sample.document "class B \x7b" = true ∧
      f.session.takesUp? (Sample.projectAnalysis 2 (.enable .project)) (.ok [91, 93])
        Sample.circumstances = some [] ∧
      f.caches? = some (Cache.projectName, []) ∧
      m.next.cache.read Cache.projectName = .ok (Cache.encode []) ∧
      m.next.loads? (.enableForProject "make") = some [] := by
    subst isPast
    decide +kernel
  obtain ⟨significant, taken, wrote, holds, loads⟩ := facts
  have marks : m.Marks Sample.document := ⟨_, rfl, significant⟩
  obtain ⟨_, outcome, answered, law⟩ := stale_after_load_iff run marks
    (fun g member => absurd member List.not_mem_nil) wrote rfl holds loads
  refine ⟨m, [again], f, past.1, m.next, _, outcome, run, marks, wrote, loads, answered,
    law.mpr ?_⟩
  rintro ⟨a, _, _, records, same, also, covered⟩
  cases same
  cases taken.symm.trans also
  simp [Sample.projectAnalysis] at covered

/-- The document is analysed for itself and for the project, and changed. Once the mode for its file
is enabled again, from the cache of the analysis before the change, it is not stale any more. -/
theorem stale_lost_to_cache :
    ∃ m between f earlier s t documents outcome,
      Run Sample.session
        (⟨s, Sample.request .enableForFile⟩ :: ([] ++ m :: (between ++ f :: earlier))) t ∧
      m.Marks Sample.document ∧ f.caches? = some ("file-A-costs.json", documents) ∧
      s.cacheFor? .enableForFile = some "file-A-costs.json" ∧
      s.cache.read "file-A-costs.json" = .ok (Cache.encode documents) ∧
      (s.loads? .enableForFile).isSome = true ∧ s.isStale Sample.document = true ∧
      (s.handle .enableForFile Sample.circumstances).1 = .ok outcome ∧
      ¬t.ReportsStale outcome.events Sample.document := by
  let analysed := Sample.completion (Sample.analysis 1 (.enable .file))
  let ended := Sample.completion (Sample.projectAnalysis 2 (.enable .project))
  obtain ⟨past, isPast⟩ : ∃ past, past = traced Sample.session Sample.begun := ⟨_, rfl⟩
  have before : Run Sample.session past.1 past.2 := by
    rw [isPast]
    exact run_traced (by decide +kernel)
  have follows : analysed.Follows past.1 := by
    rw [isPast]
    decide +kernel
  let f := Episode.mk past.2 analysed
  let project := Episode.mk f.next Sample.forProject
  let also := Episode.mk project.next ended
  let m := Episode.mk also.next Sample.significantSave
  have alsoFollows : ended.Follows (project :: f :: past.1) := by
    subst isPast
    decide +kernel
  have run : Run Sample.session (⟨m.next, Sample.request .enableForFile⟩ ::
      ([] ++ m :: ([also, project] ++ f :: past.1)))
      (Episode.mk m.next (Sample.request .enableForFile)).next :=
    ((((before.next follows).next (o := Sample.forProject) trivial).next alsoFollows).next
      (o := Sample.significantSave) trivial).next (o := Sample.request .enableForFile) trivial
  let loaded := Episode.mk m.next (Sample.request .enableForFile)
  have facts : also.next.savesSignificantly Sample.document "class B \x7b" = true ∧
      (m.next.loads? .enableForFile).isSome = true ∧
      f.caches? = some ("file-A-costs.json", [⟨Sample.document, []⟩]) ∧
      m.next.cacheFor? .enableForFile = some "file-A-costs.json" ∧
      m.next.cache.read "file-A-costs.json" = .ok (Cache.encode [⟨Sample.document, []⟩]) ∧
      m.next.isStale Sample.document = true ∧ loaded.next.isStale Sample.document = false := by
    subst isPast
    decide +kernel
  obtain ⟨significant, loads, wrote, reads, holds, stale, lost⟩ := facts
  obtain ⟨_, isLoaded⟩ := Option.isSome_iff_exists.mp loads
  obtain ⟨_, message, answered⟩ := Session.handle_of_loads isLoaded Sample.circumstances
  refine ⟨m, [also, project], f, past.1, m.next, loaded.next, _, _, run, ⟨_, rfl, significant⟩,
    wrote, reads, holds, loads, stale, answered, ?lost⟩
  case lost =>
    intro reports
    cases lost.symm.trans reports.1

end CostWatch

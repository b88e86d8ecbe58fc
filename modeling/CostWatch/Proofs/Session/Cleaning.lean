import CostWatch.Proofs.Session.Display

/-!
That a session which is cleaned has forgotten all costs, until it has new ones.

Costs are at hand, on display, in caches, or on their way from an analysis. Cleaning takes those at
hand, the display and the caches together, and it is refused while an analysis is on its way. So
nothing is left from which old costs could come back, whatever the session meets.
-/

set_option autoImplicit false

namespace CostWatch

def Session.enables : Request → Bool
  | .enableForFile | .enableForProject _ => true
  | _ => false

structure Session.Bare (s : Session) : Prop where
  store : s.store = .empty
  caches : ∀ name, Cache.IsName name → Cache.load? s.cache name = none

/-- If somebody else changes the caches, no costs can be loaded that could not be loaded before. -/
def Episode.BringsNoCaches (e : Episode) : Prop :=
  ∀ cache output, e.occurrence = .folders cache output → ∀ name documents, Cache.IsName name →
    Cache.load? cache name = some documents → Cache.load? e.session.cache name = some documents

namespace Session
variable {s : Session}

theorem Bare.loads? (bare : s.Bare) (r : Request) : s.loads? r = none := by
  rw [Option.eq_none_iff_forall_ne_some]
  intro documents loads
  cases r with
  | enableForFile =>
    obtain ⟨d, all, _, _, loaded, _⟩ := loads?_enableForFile loads
    cases (bare.caches _ (.file d.stem)).symm.trans loaded
  | enableForProject command =>
    cases (bare.caches _ .project).symm.trans (loads?_enableForProject loads)
  | _ => cases loads

theorem Bare.items {d : Document} {stale : Bool} {items : List Decoration} (bare : s.Bare)
    (sent : .decorations d stale items ∈ s.decorations) : items = [] := by
  obtain ⟨a, ds, _, _, same⟩ := mem_decorations.mp sent
  cases same
  refine List.map_eq_nil_iff.mpr (List.eq_nil_iff_forall_not_mem.mpr fun b bound => ?_)
  have listed := (mem_of_mem_bindDeclarations bound).2.1
  rw [bare.store] at listed
  cases listed

end Session

section
variable {e : Episode} {start s : Session} {c : Circumstances} {outcome : Outcome}

theorem displaying_empty (active : Option ActiveDocument) :
    Session.displaying .empty active = .empty := by
  cases active <;> rfl

theorem bare_next (bare : e.session.Bare) (none : e.takenUp = none) (own : e.BringsNoCaches) :
    e.next.Bare := by
  obtain ⟨s, o⟩ := e
  have step : s.Step o _ _ := Episode.step ⟨s, o⟩
  generalize (Episode.mk s o).answer = answer at step
  generalize (Episode.mk s o).next = next at step ⊢
  have same : s.Bare := bare
  obtain ⟨store, caches⟩ := bare
  dsimp only at store caches
  cases step with
  | loadedFile idle loads => cases (same.loads? _).symm.trans loads
  | loadedProject idle words loads => cases (same.loads? _).symm.trans loads
  | disabled => exact ⟨congrArg Store.hide store, caches⟩
  | cleanedInPart => exact ⟨store, fun name _ => Cache.load?_absent name⟩
  | cleaned => exact ⟨rfl, fun name _ => Cache.load?_absent name⟩
  | @activated d text c =>
    refine ⟨?_, caches⟩
    unfold Session.activated
    rw [store, displaying_empty, ite_self]
  | takenUp running taken =>
    rw [takenUp_of_completion, taken] at none
    cases none
  | @folders cache output =>
    refine ⟨store, fun name isName => Option.eq_none_iff_forall_ne_some.mpr ?_⟩
    intro documents loaded
    cases (caches name isName).symm.trans (own cache output rfl name documents isName loaded)
  | _ => exact ⟨store, caches⟩

theorem bare_of_cleaned (asked : e.occurrence = .request .cleanOutput c)
    (answered : e.answer = .ok outcome) :
    e.next.Bare ∧ e.next.ledger = e.session.ledger := by
  have step := e.step
  rw [asked] at step
  generalize e.answer = answer at step answered
  generalize e.next = next at step ⊢
  cases step with
  | refused | cleanedInPart => cases answered
  | cleaned idle => exact ⟨⟨rfl, fun name _ => Cache.load?_absent name⟩, rfl⟩
  | started idle notLoaded starts => cases starts
  | exempted exempts => cases exempts
  | opened opens => cases opens

theorem handedOut_of_enables (bare : e.session.Bare) {r : Request}
    (asked : e.occurrence = .request r c) (enables : Session.enables r = true)
    (answered : e.answer = .ok outcome) : ∃ a, outcome.analysis = some a := by
  have step := e.step
  rw [asked] at step
  generalize e.answer = answer at step answered
  generalize e.next = next at step
  cases step with
  | refused => cases answered
  | started idle notLoaded starts =>
    cases answered
    exact ⟨_, rfl⟩
  | loadedFile idle loads => cases (bare.loads? _).symm.trans loads
  | loadedProject idle words loads => cases (bare.loads? _).symm.trans loads
  | exempted exempts =>
    cases r with
    | whitelistAdd | whitelistRemove => cases enables
    | _ => cases exempts
  | opened opens =>
    cases r with
    | openDetail | openOverview => cases enables
    | _ => cases opens
  | _ => cases enables

theorem bare_since {later earlier : List Episode} (run : Run start (later ++ e :: earlier) s)
    (bare : e.next.Bare) (none : ∀ f ∈ later, f.takenUp = none)
    (own : ∀ f ∈ later, f.BringsNoCaches) : s.Bare := by
  induction later generalizing s with
  | nil =>
    cases run with
    | next run follows => exact bare
  | cons f later ih =>
    obtain ⟨now, before⟩ := List.forall_mem_cons.mp none
    obtain ⟨ownNow, ownBefore⟩ := List.forall_mem_cons.mp own
    cases run with
    | @next _ t o run follows =>
      exact bare_next (e := ⟨t, o⟩) (ih run before ownBefore) now ownNow

/-- What holds between a cleaning and the end of a run in which no analysis was taken up since. -/
structure Forgotten (later : List Episode) (s : Session) : Prop where
  bare : s.Bare
  /-- No mode is enabled with the costs of a cache: an analysis is started. -/
  analysed : ∀ f ∈ later, ∀ r c outcome, f.occurrence = .request r c → Session.enables r = true →
    f.answer = .ok outcome → ∃ a, outcome.analysis = some a
  hidden : ∀ f ∈ later, ∀ d stale items, .decorations d stale items ∈ f.events → items = []

end

/-- After a cleaning that succeeds, and until an analysis is taken up, a session has no costs and
shows none, and all that enables a mode starts an analysis, if nobody else writes caches. The ledger
is not touched by the cleaning. -/
theorem cleaning_forgets {start s : Session} {later earlier : List Episode} {e : Episode}
    {c : Circumstances} {outcome : Outcome} (run : Run start (later ++ e :: earlier) s)
    (asked : e.occurrence = .request .cleanOutput c) (answered : e.answer = .ok outcome)
    (none : ∀ f ∈ later, f.takenUp = none) (own : ∀ f ∈ later, f.BringsNoCaches) :
    Forgotten later s ∧ e.next.ledger = e.session.ledger := by
  obtain ⟨bare, ledger⟩ := bare_of_cleaned asked answered
  -- The session is bare from then on, before and after each episode.
  have around {f : Episode} (member : f ∈ later) : f.session.Bare ∧ f.next.Bare := by
    obtain ⟨after, before, rfl⟩ := List.append_of_mem member
    rw [List.append_assoc] at run
    obtain ⟨runBefore, _⟩ := run.of_suffix (List.suffix_append after _)
    have bareBefore := bare_since runBefore bare
      (fun g within => none g (by simp [within])) (fun g within => own g (by simp [within]))
    exact ⟨bareBefore, bare_next bareBefore (none f member) (own f member)⟩
  refine ⟨⟨bare_since run bare none own, ?_, ?_⟩, ledger⟩
  · intro f member r c outcome asked enables answered
    exact handedOut_of_enables (around member).1 asked enables answered
  · intro f member d stale items sent
    exact (around member).2.items (decorations_mem_events.mp sent).2

namespace Sample

def withoutCosts : List Occurrence :=
  [request .enableForFile, .folders .absent .absent,
    .completion (projectAnalysis 2 (.enable .project)) (.error .busy) circumstances,
    request (.enableForProject "make"), request .disable, request (.documentSaved document "h"),
    request (.documentChanged document "g"), request (.documentActivated document "f")]

end Sample

theorem cleaning_forgets_project :
    ∃ later e earlier s, Run Sample.reader (later ++ e :: earlier) s ∧ e.session.store.size = 2 ∧
      later.any Episode.shows = true ∧ (handedOut later).length = 2 ∧ Forgotten later s ∧
      e.next.ledger = e.session.ledger := by
  obtain ⟨past, isPast⟩ : ∃ past, past = traced Sample.reader Sample.readerShown := ⟨_, rfl⟩
  obtain ⟨e, isEpisode⟩ : ∃ e, e = Episode.mk past.2 (Sample.request .cleanOutput) := ⟨_, rfl⟩
  obtain ⟨next, isNext⟩ : ∃ next, next = traced e.next Sample.withoutCosts := ⟨_, rfl⟩
  have run : Run Sample.reader (next.1 ++ e :: past.1) next.2 := by
    have run := run_traced (show Feasible Sample.reader
      (Sample.withoutCosts ++ Sample.request .cleanOutput :: Sample.readerShown) by decide +kernel)
    rw [traced_append, traced, ← isPast] at run
    rw [isNext, isEpisode]
    exact run
  have facts : e.answer.toOption = some (.ofEvents [.cleared [],
        .info "Removed cached costs and analyzer output"]) ∧
      (next.1.all fun f => f.takenUp.isNone) = true ∧ e.session.store.size = 2 ∧
      next.1.any Episode.shows = true ∧ (handedOut next.1).length = 2 := by
    subst isNext isEpisode isPast
    decide +kernel
  obtain ⟨answered, noneTaken, stored, shown, started⟩ := facts
  have none : ∀ f ∈ next.1, f.takenUp = none := fun f member =>
    Option.isNone_iff_eq_none.mp (List.all_eq_true.mp noneTaken f member)
  have own : ∀ f ∈ next.1, f.BringsNoCaches := by
    intro f member cache output changed name documents _ loaded
    rw [isNext] at member
    have listed := occurrence_mem_of_traced member
    rw [changed] at listed
    simp only [Sample.withoutCosts, Sample.request, List.mem_cons, List.not_mem_nil,
      Occurrence.folders.injEq, reduceCtorEq, false_or, or_false] at listed
    rw [listed.1, Cache.load?_absent] at loaded
    cases loaded
  have asked : e.occurrence = .request .cleanOutput Sample.circumstances := by
    rw [isEpisode]
    rfl
  obtain ⟨forgotten, ledger⟩ :=
    cleaning_forgets run asked (Session.toOption_eq_some_iff.mp answered) none own
  exact ⟨next.1, e, past.1, next.2, run, stored, shown, started, forgotten, ledger⟩

end CostWatch

import CostWatch.Proofs.Session.Modes

/-!
What the events of a session put on the screen of the editor: decorations of the active document,
which replace those that it shows, or nothing at all.

Of everything else that a session tells, nothing is seen in a document. So what an editor shows is
known from the decorations and the clearings alone.
-/

set_option autoImplicit false

namespace CostWatch

def Event.onScreen : Event → Bool
  | .decorations _ _ _ | .cleared _ => true
  | _ => false

namespace Episode
variable (e : Episode)

def events : List Event :=
  match e.answer with
  | .ok outcome => outcome.events
  | .error _ => []

/-- Whether the costs of the active document are shown again, as they are afterwards. -/
def shows : Bool :=
  match e.occurrence with
  | .request (.documentActivated _ _) _ => e.session.mode.isEnabled
  | .request (.documentChanged d _) _ => e.session.mode.isEnabled && e.session.isActive d
  | .request (.documentSaved d text) _ =>
    e.session.savesSignificantly d text && e.session.isActive d && e.handedOut.isNone
  | _ => e.renewed?.isSome

def blanks : Bool :=
  match e.occurrence, e.answer with
  | .request .disable _, .ok _ => true
  | .request .cleanOutput _, .ok _ => e.session.mode.isEnabled
  | _, _ => false

end Episode

section
variable {e : Episode}

theorem events_of_answer {outcome : Outcome} (answered : e.answer = .ok outcome) :
    e.events = outcome.events := by
  rw [Episode.events, answered]

theorem events_of_failure {f : Failure} (answered : e.answer = .error f) : e.events = [] := by
  rw [Episode.events, answered]

theorem blanks_of_failure {f : Failure} (answered : e.answer = .error f) : e.blanks = false := by
  unfold Episode.blanks
  rw [answered]
  split <;> simp_all

theorem shows_of_request {r : Request} {c : Circumstances} (asked : e.occurrence = .request r c)
    (other : Session.tells r = false) : e.shows = (e.session.loads? r).isSome := by
  rw [Episode.shows, asked]
  cases r with
  | documentActivated | documentChanged | documentSaved => cases other
  | _ => exact congrArg Option.isSome (renewed?_of_request asked)

theorem shows_of_completion {a : Analysis} {result : Except Failure (List UInt8)}
    {c : Circumstances} (ended : e.occurrence = .completion a result c) :
    e.shows = (e.session.takesUp? a result c).isSome := by
  rw [Episode.shows, ended]
  simp only [renewed?_of_completion ended, Option.isSome_map]

theorem blanks_of_request {r : Request} {c : Circumstances} (asked : e.occurrence = .request r c)
    (disables : r ≠ .disable) (cleans : r ≠ .cleanOutput) : e.blanks = false := by
  rw [Episode.blanks, asked]
  cases r with
  | disable => exact absurd rfl disables
  | cleanOutput => exact absurd rfl cleans
  | _ => rfl

theorem Session.filter_decorations (s : Session) :
    s.decorations.filter Event.onScreen = s.decorations := by
  refine List.filter_eq_self.mpr fun event among => ?_
  obtain ⟨_, _, _, _, rfl⟩ := mem_decorations.mp among
  rfl

/-- The decorations of an episode are those of the session afterwards. -/
theorem filter_events (e : Episode) :
    e.events.filter Event.onScreen =
      if e.shows then e.next.decorations
      else if e.blanks then [.cleared e.session.panels] else [] := by
  obtain ⟨s, o⟩ := e
  have step := s.step_meet o
  have after : (Episode.mk s o).next = (s.meet o).2 := rfl
  have answered : (Episode.mk s o).answer = (s.meet o).1 := rfl
  generalize (s.meet o).2 = next at step after
  generalize (s.meet o).1 = answer at step answered
  rw [after]
  -- Most of what a session meets puts nothing on the screen, and new costs put themselves there.
  have quiet (silent : (Episode.mk s o).events.filter Event.onScreen = [])
      (notShown : (Episode.mk s o).shows = false) (notBlank : (Episode.mk s o).blanks = false) :
      (Episode.mk s o).events.filter Event.onScreen =
        if (Episode.mk s o).shows then next.decorations
        else if (Episode.mk s o).blanks then [.cleared s.panels] else [] := by
    rw [silent, notShown, notBlank]
    rfl
  have loaded {message : String} (events : List Event)
      (told : (Episode.mk s o).events = events ++ (next.decorations ++ [.info message]))
      (others : events.filter Event.onScreen = []) (shown : (Episode.mk s o).shows = true) :
      (Episode.mk s o).events.filter Event.onScreen =
        if (Episode.mk s o).shows then next.decorations
        else if (Episode.mk s o).blanks then [.cleared s.panels] else [] := by
    rw [told, shown, List.filter_append, List.filter_append, others, next.filter_decorations]
    exact List.append_nil _
  cases step with
  | refused asks notLoaded =>
    refine quiet (by rw [events_of_failure answered]; rfl) ?_ (blanks_of_failure answered)
    rw [shows_of_request rfl asks, notLoaded]
    rfl
  | loadedFile idle loads =>
    refine loaded [] (events_of_answer answered) rfl ?_
    rw [shows_of_request rfl rfl, loads]
    rfl
  | loadedProject idle words loads =>
    refine loaded [] (events_of_answer answered) rfl ?_
    rw [shows_of_request rfl rfl, loads]
    rfl
  | started idle notLoaded starts =>
    refine quiet (by rw [events_of_answer answered]; rfl) ?_
      (blanks_of_request rfl starts.ne_disable ?_)
    · rw [shows_of_request rfl starts.tells_eq_false, notLoaded]
      rfl
    · rintro rfl
      cases starts
  | @disabled c enabled =>
    have blank : (Episode.mk s (.request .disable c)).blanks = true := by
      rw [Episode.blanks, answered]
    rw [events_of_answer answered, shows_of_request rfl rfl, blank]
    rfl
  | cleanedInPart idle =>
    exact quiet (by rw [events_of_failure answered]; rfl) rfl (blanks_of_failure answered)
  | @cleaned c message idle =>
    have blank : (Episode.mk s (.request .cleanOutput c)).blanks = s.mode.isEnabled := by
      rw [Episode.blanks, answered]
    rw [events_of_answer answered, shows_of_request rfl rfl, blank]
    cases s.mode.isEnabled <;> rfl
  | @exempted r c ledger told exempts =>
    have silent : (Episode.mk s (.request r c)).events.filter Event.onScreen = [] := by
      cases told with
      | error f => rw [events_of_failure answered]; rfl
      | ok message => rw [events_of_answer answered]; rfl
    cases r with
    | whitelistAdd | whitelistRemove => exact quiet silent rfl rfl
    | _ => cases exempts
  | @opened r c panel title html opens enabled =>
    have silent : (Episode.mk s (.request r c)).events.filter Event.onScreen = [] := by
      rw [events_of_answer answered]
      rfl
    cases r with
    | openDetail | openOverview => exact quiet silent rfl rfl
    | _ => cases opens
  | @activated d text c =>
    have notBlank : (Episode.mk s (.request (.documentActivated d text) c)).blanks = false := rfl
    rw [events_of_answer answered, notBlank, Episode.shows]
    by_cases enabled : s.mode.isEnabled = true
    · simp [Outcome.ofEvents, enabled, Session.filter_decorations]
    · simp [Outcome.ofEvents, enabled]
  | @changed d text c =>
    have notBlank : (Episode.mk s (.request (.documentChanged d text) c)).blanks = false := rfl
    rw [events_of_answer answered, notBlank, Episode.shows]
    by_cases seen : (s.mode.isEnabled && s.isActive d) = true
    · simp [Outcome.ofEvents, seen, Session.filter_decorations]
    · simp [Outcome.ofEvents, seen]
  | @saved d text c change =>
    have notBlank : (Episode.mk s (.request (.documentSaved d text) c)).blanks = false := rfl
    rw [events_of_answer answered, notBlank, Episode.shows, handedOut_of_answer answered]
    by_cases significant : s.savesSignificantly d text = true
    · have unseen : (Session.significantChange d change).onScreen = false := rfl
      by_cases active : s.isActive d = true
      · simp [Outcome.ofEvents, significant, active, unseen, Session.filter_decorations]
      · simp [Outcome.ofEvents, significant, active, unseen]
    · simp [Outcome.ofEvents, significant]
  | savedAndStarted idle starts active significant =>
    refine quiet (by rw [events_of_answer answered]; rfl) ?_ rfl
    rw [Episode.shows, handedOut_of_answer answered]
    exact Bool.and_false _
  | shutDown => exact quiet (by rw [events_of_answer answered]; rfl) rfl rfl
  | late other =>
    refine quiet (by rw [events_of_answer answered]; rfl) ?_ rfl
    rw [shows_of_completion rfl, Session.takesUp?_of_late other]
    rfl
  | discarded running =>
    refine quiet (by rw [events_of_answer answered]; rfl) ?_ rfl
    rw [shows_of_completion rfl, Session.takesUp?_of_discarded running]
    rfl
  | failed running none =>
    refine quiet (by rw [events_of_answer answered]; rfl) ?_ rfl
    rw [shows_of_completion rfl, none]
    rfl
  | @takenUp a result c records ids ledger message running taken =>
    refine loaded [.progress false a.title] (events_of_answer answered) rfl ?_
    rw [shows_of_completion rfl, taken]
    rfl
  | folders => exact quiet (by rw [events_of_answer answered]; rfl) rfl rfl

theorem decorations_mem_events {d : Document} {stale : Bool} {items : List Decoration} :
    .decorations d stale items ∈ e.events ↔
      e.shows = true ∧ .decorations d stale items ∈ e.next.decorations := by
  have seen : .decorations d stale items ∈ e.events ↔
      .decorations d stale items ∈ e.events.filter Event.onScreen :=
    ⟨fun member => List.mem_filter.mpr ⟨member, rfl⟩, List.mem_of_mem_filter⟩
  rw [seen, filter_events]
  cases e.shows with
  | true => simp
  | false => cases e.blanks <;> simp

theorem shows_of_renewed {documents : List CachedDocument} (renewed : e.renewed? = some documents) :
    e.shows = true := by
  obtain ⟨s, o⟩ := e
  cases o with
  | request r c =>
    have loads := (renewed?_of_request (e := ⟨s, .request r c⟩) rfl).symm.trans renewed
    cases r with
    | enableForFile | enableForProject =>
      rw [shows_of_request rfl rfl, loads]
      rfl
    | _ => cases loads
  | completion a result c =>
    rw [Episode.shows, renewed]
    rfl
  | folders cache output => cases renewed

/-- Costs are shown again because there are new ones, or because the editor tells of a document. -/
theorem shows_cases (shown : e.shows = true) :
    (∃ documents, e.renewed? = some documents) ∨
      e.session.mode ≠ .disabled ∧ ∃ r c, e.occurrence = .request r c ∧ Session.tells r = true := by
  obtain ⟨s, o⟩ := e
  have told {r : Request} (enabled : s.mode.isEnabled = true) (tells : Session.tells r = true)
      (c : Circumstances) : s.mode ≠ .disabled ∧
        ∃ q d, (Occurrence.request r c) = .request q d ∧ Session.tells q = true :=
    ⟨Mode.isEnabled_iff.mp enabled, r, c, rfl, tells⟩
  cases o with
  | request r c =>
    cases r with
    | documentActivated d text => exact .inr (told shown rfl c)
    | documentChanged d text => exact .inr (told (Bool.and_eq_true_iff.mp shown).1 rfl c)
    | documentSaved d text =>
      simp only [Episode.shows, Session.savesSignificantly, Bool.and_eq_true] at shown
      exact .inr (told shown.1.1.1 rfl c)
    | _ => exact .inl (Option.isSome_iff_exists.mp shown)
  | completion a result c => exact .inl (Option.isSome_iff_exists.mp shown)
  | folders cache output => cases shown

theorem enabled_of_renewed {history : List Episode} {documents : List CachedDocument}
    (follows : e.occurrence.Follows history) (ready : Ready history e.session)
    (renewed : e.renewed? = some documents) : e.next.mode ≠ .disabled := by
  obtain ⟨s, o⟩ := e
  cases o with
  | request r c =>
    have loads := (renewed?_of_request (e := ⟨s, .request r c⟩) rfl).symm.trans renewed
    have mode := Session.mode_of_loads loads c
    change (s.handle r c).2.mode ≠ _
    rw [mode]
    cases r <;> exact Mode.noConfusion
  | completion a result c =>
    obtain ⟨records, taken, _⟩ := Option.map_eq_some_iff.mp renewed
    have running := (Session.takesUp?_eq_some_iff.mp taken).1
    obtain ⟨ledger, after⟩ := Session.complete_of_taken taken
    change (s.complete a result c).2.mode ≠ _
    rw [after]
    exact (ready a follows running).1
  | folders cache output => cases renewed

theorem enabled_of_shows {history : List Episode} (follows : e.occurrence.Follows history)
    (ready : Ready history e.session) (shown : e.shows = true) : e.next.mode ≠ .disabled := by
  rcases shows_cases shown with ⟨documents, renewed⟩ | ⟨enabled, r, c, asked, tells⟩
  · exact enabled_of_renewed follows ready renewed
  · intro disabled
    obtain ⟨_, _, asks, _⟩ := disables_of_step (e.session.step_meet e.occurrence)
      (fun a result c ended running => by cases asked.symm.trans ended) enabled disabled
    cases asked.symm.trans asks
    cases tells

end

end CostWatch

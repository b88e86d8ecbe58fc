import CostWatch.Proofs.Session.Display
import CostWatch.Proofs.Session.Sending

/-!
What a session shows while it is disabled, which is nothing, and which panels it closes.

A session notes the kinds of the panels that it has opened, so that it can close them. Over a run,
these are the kinds that were opened since panels were closed for the last time. Panels are left
alone when a disabled session is cleaned; then there are none.
-/

set_option autoImplicit false

namespace CostWatch

namespace Event

def isShowing : Event → Bool
  | .decorations _ _ _ | .panel _ _ _ => true
  | _ => false

def ofPanels : Event → Bool
  | .panel _ _ _ | .cleared _ => true
  | _ => false

theorem ofPanels_of_isPlain (event : Event) (plain : event.isPlain = true) :
    event.ofPanels = false := by
  cases event with
  | panel | cleared => cases plain
  | _ => rfl

end Event

/-- Whether a panel was opened and has not been closed since. -/
def Opened (kind : Panel) (events : List Event) : Prop :=
  ∃ before title html after, events = before ++ .panel kind title html :: after ∧
    ∀ panels, .cleared panels ∉ after

section
variable {kind : Panel} {events : List Event}

theorem not_opened_nil : ¬ Opened kind [] := by
  rintro ⟨before, title, html, after, same, _⟩
  simp at same

/-- The last event tells whether a panel is open, unless it is of another sort. -/
theorem opened_append_singleton (event : Event) :
    Opened kind (events ++ [event]) ↔
      (∃ title html, event = .panel kind title html) ∨
        Opened kind events ∧ ∀ panels, event ≠ .cleared panels := by
  constructor
  · rintro ⟨before, title, html, after, same, uncleared⟩
    rcases List.eq_nil_or_concat after with rfl | ⟨rest, last, rfl⟩
    · obtain ⟨_, single⟩ := List.append_inj' same rfl
      exact .inl ⟨title, html, List.singleton_inj.mp single⟩
    · have split : events ++ [event] = (before ++ .panel kind title html :: rest) ++ [last] := by
        simpa using same
      obtain ⟨rfl, single⟩ := List.append_inj' split rfl
      cases List.singleton_inj.mp single
      refine .inr ⟨⟨before, title, html, rest, rfl, fun panels member => ?_⟩, fun panels same => ?_⟩
      · exact uncleared panels (by simp [member])
      · exact uncleared panels (by simp [same])
  · rintro (⟨title, html, rfl⟩ | ⟨⟨before, title, html, after, rfl, uncleared⟩, other⟩)
    · exact ⟨events, title, html, [], rfl, fun panels => List.not_mem_nil⟩
    · refine ⟨before, title, html, after ++ [event], by simp, fun panels member => ?_⟩
      rcases List.mem_append.mp member with old | last
      · exact uncleared panels old
      · exact other panels (List.mem_singleton.mp last).symm

theorem opened_filter (events : List Event) :
    Opened kind (events.filter Event.ofPanels) ↔ Opened kind events := by
  induction events using List.reverseRecOn with
  | nil => rfl
  | append_singleton events event ih =>
    rw [List.filter_append, opened_append_singleton, ← ih]
    cases event with
    | panel | cleared => exact opened_append_singleton _
    | _ => simp [Event.ofPanels]

theorem opened_append (more : List Event) :
    Opened kind (events ++ more) ↔ Opened kind (events ++ more.filter Event.ofPanels) := by
  rw [← opened_filter, ← opened_filter (events ++ _), List.filter_append, List.filter_append,
    List.filter_filter]
  simp only [Bool.and_self]

end

/-! What an episode does to the panels -/

theorem Session.mem_panelsWith {s : Session} {kind panel : Panel} :
    kind ∈ s.panelsWith panel ↔ kind = panel ∨ kind ∈ s.panels := by
  cases kind <;> simp [panelsWith]

theorem Session.nodup_panelsWith (s : Session) (panel : Panel) : (s.panelsWith panel).Nodup :=
  List.Nodup.filter _ (by decide)

section
variable {e : Episode} {history : List Episode} {start s : Session} {panels : List Panel}

inductive Panelling (e : Episode) : Prop where
  | kept : e.events.filter Event.ofPanels = [] → e.next.panels = e.session.panels →
      e.blanks = false → Panelling e
  | opened (kind : Panel) (title html : String) : e.events = [.panel kind title html] →
      e.next.panels = e.session.panelsWith kind → e.completed = none → e.next.mode ≠ .disabled →
      e.blanks = false → Panelling e
  | closed (message : String) : e.events = [.cleared e.session.panels, .info message] →
      e.next.panels = [] → e.blanks = true → Panelling e

theorem panelling (e : Episode) : Panelling e := by
  cases sending e with
  | plain plain _ _ panels blanks =>
    exact .kept (filter_of_plain plain Event.ofPanels_of_isPlain) panels blanks
  | begins a events _ _ panels blanks => exact .kept (by rw [events]; rfl) panels blanks
  | ends a others events plain _ _ _ panels blanks =>
    refine .kept ?_ panels blanks
    rw [events]
    change others.filter Event.ofPanels = []
    exact filter_of_plain plain Event.ofPanels_of_isPlain
  | opens kind title html events _ ended enabled panels blanks =>
    exact .opened kind title html events panels ended enabled blanks
  | clears message events _ _ panels blanks => exact .closed message events panels blanks

theorem events_of_cleared (clears : .cleared panels ∈ e.events) :
    ∃ message, e.events = [.cleared e.session.panels, .info message] ∧ e.blanks = true := by
  cases panelling e with
  | kept none => exact absurd rfl (List.filter_eq_nil_iff.mp none _ clears)
  | opened kind title html events => simp [events] at clears
  | closed message events _ blanks => exact ⟨message, events, blanks⟩

theorem enabled_of_panel {kind : Panel} {title html : String}
    (opens : .panel kind title html ∈ e.events) :
    e.completed = none ∧ e.next.mode ≠ .disabled := by
  cases panelling e with
  | kept none => exact absurd rfl (List.filter_eq_nil_iff.mp none _ opens)
  | opened kind title html _ _ ended enabled => exact ⟨ended, enabled⟩
  | closed message events => simp [events, Event.info] at opens

theorem clears_iff_blanks : (∃ panels, .cleared panels ∈ e.events) ↔ e.blanks = true := by
  constructor
  · rintro ⟨panels, clears⟩
    obtain ⟨_, _, blanks⟩ := events_of_cleared clears
    exact blanks
  · intro blanks
    cases panelling e with
    | kept _ _ none => cases blanks.symm.trans none
    | opened _ _ _ _ _ _ _ none => cases blanks.symm.trans none
    | closed message events => exact ⟨e.session.panels, by simp [events]⟩

theorem blanks_iff : e.blanks = true ↔ ∃ outcome c, e.answer = .ok outcome ∧
    (e.occurrence = .request .disable c ∨
      e.occurrence = .request .cleanOutput c ∧ e.session.mode ≠ .disabled) := by
  constructor
  · intro blanks
    unfold Episode.blanks at blanks
    split at blanks
    · next c outcome asked answered => exact ⟨outcome, c, answered, .inl asked⟩
    · next c outcome asked answered =>
      exact ⟨outcome, c, answered, .inr ⟨asked, Mode.isEnabled_iff.mp blanks⟩⟩
    · cases blanks
  · rintro ⟨outcome, c, answered, asked | ⟨asked, enabled⟩⟩
    · rw [Episode.blanks, asked, answered]
    · rw [Episode.blanks, asked, answered]
      exact Mode.isEnabled_iff.mpr enabled

/-! What the session notes of the panels -/

/-- The session notes the panels that are open. -/
def Noted (history : List Episode) (s : Session) : Prop :=
  s.panels.Nodup ∧ ∀ kind, kind ∈ s.panels ↔ Opened kind (sent history)

theorem noted_next (noted : Noted history e.session) : Noted (e :: history) e.next := by
  obtain ⟨once, listed⟩ := noted
  cases panelling e with
  | kept none panels =>
    rw [Noted, panels]
    refine ⟨once, fun kind => ?_⟩
    rw [sent, opened_append, none, List.append_nil]
    exact listed kind
  | opened panel title html events panels =>
    rw [Noted, panels]
    refine ⟨e.session.nodup_panelsWith panel, fun kind => ?_⟩
    rw [Session.mem_panelsWith, listed, sent, events, opened_append_singleton]
    simp [eq_comm]
  | closed message events panels =>
    rw [Noted, panels]
    refine ⟨.nil, fun kind => ?_⟩
    have cleared : e.events.filter Event.ofPanels = [.cleared e.session.panels] := by
      rw [events]
      rfl
    rw [sent, opened_append, cleared, opened_append_singleton]
    simp

theorem noted_of_run (fresh : start.panels = []) (run : Run start history s) :
    Noted history s := by
  induction run with
  | start =>
    rw [Noted, fresh]
    exact ⟨.nil, fun kind => iff_of_false List.not_mem_nil not_opened_nil⟩
  | @next history s o run follows ih => exact noted_next (e := ⟨s, o⟩) ih

theorem closes_noted (fresh : start.panels = []) (run : Run start history s)
    {before after : List Event} (split : sent history = before ++ .cleared panels :: after) :
    panels.Nodup ∧ ∀ kind, kind ∈ panels ↔ Opened kind before := by
  induction run generalizing after with
  | start => exact absurd split.symm (List.append_ne_nil_of_right_ne_nil _ (List.cons_ne_nil _ _))
  | @next history s o run follows ih =>
    have noted := noted_of_run fresh run
    -- An episode that closes panels begins with that.
    have first (more : List Event)
        (clears : (Episode.mk s o).events = more ++ .cleared panels :: after) :
        more = [] ∧ panels = s.panels := by
      have member : .cleared panels ∈ (Episode.mk s o).events := by
        rw [clears]
        simp
      obtain ⟨message, events, _⟩ := events_of_cleared member
      rw [events] at clears
      cases more with
      | nil =>
        cases clears
        exact ⟨rfl, rfl⟩
      | cons event more => simp [Event.info, List.cons_eq_append_iff] at clears
    rcases List.append_eq_append_iff.mp split with ⟨more, rfl, clears⟩ | ⟨more, earlier, clears⟩
    · obtain ⟨rfl, rfl⟩ := first more clears
      rw [List.append_nil]
      exact noted
    · cases more with
      | nil =>
        obtain ⟨_, rfl⟩ := first [] clears.symm
        rw [List.append_nil] at earlier
        exact earlier ▸ noted
      | cons event more =>
        obtain ⟨rfl, _⟩ := List.cons.inj clears
        exact ih earlier

end

/-! Over a run -/

structure PanelDiscipline (history : List Episode) (s : Session) : Prop where
  /-- Nothing is shown in an episode that leaves the session disabled. -/
  hidden : ∀ e ∈ history, e.next.mode = .disabled → ∀ event ∈ e.events, event.isShowing = false
  /-- What was started before the session was disabled shows nothing when it ends. -/
  late : ∀ e earlier, e :: earlier <:+ history → ∀ a ∈ overtaken earlier, e.completed = some a →
    ∀ event ∈ e.events, event.isShowing = false
  /-- The panels that are closed are those that were opened since panels were closed before. -/
  closes : ∀ before panels after, sent history = before ++ .cleared panels :: after →
    panels.Nodup ∧ ∀ kind, kind ∈ panels ↔ Opened kind before
  clears : ∀ e ∈ history, (∃ panels, .cleared panels ∈ e.events) ↔
    ∃ outcome c, e.answer = .ok outcome ∧ (e.occurrence = .request .disable c ∨
      e.occurrence = .request .cleanOutput c ∧ e.session.mode ≠ .disabled)
  /-- While the session is disabled, no panel is open. -/
  closed : s.mode = .disabled → ∀ kind, ¬ Opened kind (sent history)

/-- In every run, nothing is shown while the session is disabled, not even by an analysis that was
started before; panels are closed whenever it is disabled, or cleaned while it shows costs, and then
exactly those are closed that were opened since the last time. -/
theorem panel_discipline {config : Config} {directory : String} {extract : Extractor}
    {ledger : Ledger} {cache output : Folder} {history : List Episode} {s : Session}
    (run : Run (.new config directory extract ledger cache output) history s) :
    PanelDiscipline history s where
  hidden e member disabled event among := by
    obtain ⟨later, earlier, rfl⟩ := List.append_of_mem member
    obtain ⟨before, follows⟩ := run.of_suffix (List.suffix_append later (e :: earlier))
    cases event with
    | decorations d stale items =>
      have shown := (decorations_mem_events.mp among).1
      exact absurd disabled (enabled_of_shows follows (coherent_of_run before).2 shown)
    | panel kind title html => exact absurd disabled (enabled_of_panel among).2
    | _ => rfl
  late e earlier within a member ended event among := by
    obtain ⟨before, _⟩ := run.of_suffix within
    have tracked := tracked_of_run (tracked_new config directory extract ledger cache output) before
    cases event with
    | decorations d stale items =>
      -- An analysis that shows costs is awaited, so the session would have noted to discard it.
      obtain ⟨s, o⟩ := e
      cases o with
      | completion b result c =>
        cases ended
        have shown := (decorations_mem_events.mp among).1
        rw [shows_of_completion rfl] at shown
        obtain ⟨records, taken⟩ := Option.isSome_iff_exists.mp shown
        have running := (Session.takesUp?_eq_some_iff.mp taken).1
        obtain ⟨handed, _, discarded⟩ := tracked.void a member
        have awaited : a ∈ outstanding earlier := by
          rw [tracked.mem_outstanding_iff handed, running]
          rfl
        cases running.symm.trans (discarded awaited)
      | _ => cases ended
    | panel kind title html => cases (enabled_of_panel among).1.symm.trans ended
    | _ => rfl
  closes before panels after split := closes_noted rfl run split
  clears e member := clears_iff_blanks.trans blanks_iff
  closed disabled kind opened := by
    have none := ((coherent_of_run run).1.silent disabled).2.2.2
    have listed := ((noted_of_run rfl run).2 kind).mpr opened
    rw [none] at listed
    cases listed

theorem panel_discipline_late :
    ∃ history s, Run Sample.reader history s ∧ PanelDiscipline history s ∧
      (overtaken history).map Analysis.id = [2] ∧ (completed history).map Analysis.id = [2, 1] ∧
      (sent history).countP Event.ofPanels = 4 ∧
      .cleared [.overview, .history] ∈ sent history := by
  let id : MethodId := .of Sample.document "f"
  let occurrences := [Sample.request .cleanOutput,
    Sample.completion (Sample.projectAnalysis 2 .reExecute), Sample.request .disable,
    Sample.request .reExecute,
    Sample.request (.openOverview none), Sample.request (.openDetail id),
    Sample.request (.openOverview none)] ++ Sample.readerShown
  have run := run_traced (show Feasible Sample.reader occurrences by decide +kernel)
  exact ⟨_, _, run, panel_discipline run, by decide +kernel, by decide +kernel,
    by decide +kernel, by decide +kernel⟩

end CostWatch

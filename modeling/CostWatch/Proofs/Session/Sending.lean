import CostWatch.Proofs.Session.Screen

/-!
What an episode sends to the editor besides notices and decorations: that an analysis begins or
ends, or that panels are opened or closed. Never more than one of these.
-/

set_option autoImplicit false

namespace CostWatch

def Event.isPlain : Event → Bool
  | .notice _ _ | .decorations _ _ _ => true
  | _ => false

def sent : List Episode → List Event
  | [] => []
  | e :: earlier => sent earlier ++ e.events

/-- The cases of an episode, seen from what it sends. -/
inductive Sending (e : Episode) : Prop where
  /-- If an analysis ends here, it is one that the session does not wait for. -/
  | plain : (∀ event ∈ e.events, event.isPlain = true) → e.handedOut = none →
      (∀ a, e.completed = some a → e.session.running.map Running.id ≠ some a.id) →
      e.next.panels = e.session.panels → e.blanks = false → Sending e
  | begins (a : Analysis) : e.events = [.progress true a.title] → e.handedOut = some a →
      e.completed = none → e.next.panels = e.session.panels → e.blanks = false → Sending e
  | ends (a : Analysis) (others : List Event) : e.events = .progress false a.title :: others →
      (∀ event ∈ others, event.isPlain = true) → e.handedOut = none → e.completed = some a →
      e.session.running.map Running.id = some a.id → e.next.panels = e.session.panels →
      e.blanks = false → Sending e
  | opens (kind : Panel) (title html : String) : e.events = [.panel kind title html] →
      e.handedOut = none → e.completed = none → e.next.mode ≠ .disabled →
      e.next.panels = e.session.panelsWith kind → e.blanks = false → Sending e
  | clears (message : String) : e.events = [.cleared e.session.panels, .info message] →
      e.handedOut = none → e.completed = none → e.next.panels = [] → e.blanks = true → Sending e

theorem filter_of_plain {events : List Event} {p : Event → Bool}
    (plain : ∀ event ∈ events, event.isPlain = true)
    (others : ∀ event, event.isPlain = true → p event = false) : events.filter p = [] :=
  List.filter_eq_nil_iff.mpr fun event member =>
    Bool.eq_false_iff.mp (others event (plain event member))

theorem Session.isPlain_of_decorations {s : Session} :
    ∀ event ∈ s.decorations, event.isPlain = true := by
  intro event among
  obtain ⟨_, _, _, _, rfl⟩ := mem_decorations.mp among
  rfl

theorem Session.isPlain_of_shown {s : Session} {message : String} :
    ∀ event ∈ s.decorations ++ [.info message], event.isPlain = true :=
  List.forall_mem_append.mpr ⟨s.isPlain_of_decorations, List.forall_mem_singleton.mpr rfl⟩

theorem Sending.of_plain {s : Session} {r : Request} {c : Circumstances} {events : List Event}
    (answered : (Episode.mk s (.request r c)).answer = .ok (.ofEvents events))
    (plain : ∀ event ∈ events, event.isPlain = true)
    (panels : (Episode.mk s (.request r c)).next.panels = s.panels)
    (blanks : (Episode.mk s (.request r c)).blanks = false) : Sending ⟨s, .request r c⟩ := by
  refine .plain ?_ (handedOut_of_answer answered) nofun panels blanks
  rw [events_of_answer answered]
  exact plain

theorem Sending.of_failure {s : Session} {r : Request} {c : Circumstances} {f : Failure}
    (answered : (Episode.mk s (.request r c)).answer = .error f)
    (panels : (Episode.mk s (.request r c)).next.panels = s.panels) :
    Sending ⟨s, .request r c⟩ := by
  refine .plain ?_ (handedOut_of_failure answered) nofun panels (blanks_of_failure answered)
  rw [events_of_failure answered]
  exact nofun

theorem sending (e : Episode) : Sending e := by
  obtain ⟨s, o⟩ := e
  have step := s.step_meet o
  have answered : (Episode.mk s o).answer = (s.meet o).1 := rfl
  have after : (Episode.mk s o).next.panels = (s.meet o).2.panels := rfl
  have mode : (Episode.mk s o).next.mode = (s.meet o).2.mode := rfl
  generalize (s.meet o).2 = next at step after mode
  generalize (s.meet o).1 = answer at step answered
  cases step with
  | refused asks notLoaded => exact .of_failure answered after
  | loadedFile idle loads => exact .of_plain answered Session.isPlain_of_shown after rfl
  | loadedProject idle words loads => exact .of_plain answered Session.isPlain_of_shown after rfl
  | started idle notLoaded starts =>
    refine .begins _ (events_of_answer answered) (handedOut_of_answer answered) rfl after
      (blanks_of_request rfl starts.ne_disable ?_)
    rintro rfl
    cases starts
  | disabled enabled =>
    refine .clears _ (events_of_answer answered) (handedOut_of_answer answered) rfl after ?_
    rw [Episode.blanks, answered]
  | cleanedInPart idle => exact .of_failure answered after
  | @cleaned c message idle =>
    have blank : (Episode.mk s (.request .cleanOutput c)).blanks = s.mode.isEnabled := by
      rw [Episode.blanks, answered]
    have sends := events_of_answer answered
    cases enabled : s.mode.isEnabled with
    | true =>
      rw [enabled] at blank after sends
      exact .clears message sends (handedOut_of_answer answered) rfl after blank
    | false =>
      rw [enabled] at blank after answered
      exact .of_plain answered (List.forall_mem_singleton.mpr rfl) after blank
  | @exempted r c ledger told exempts =>
    have blank : (Episode.mk s (.request r c)).blanks = false := by
      refine blanks_of_request rfl ?_ ?_ <;> rintro rfl <;> cases exempts
    cases told with
    | error f => exact .of_failure answered after
    | ok message => exact .of_plain answered (List.forall_mem_singleton.mpr rfl) after blank
  | @opened r c panel title html opens enabled =>
    refine .opens panel title html (events_of_answer answered) (handedOut_of_answer answered) rfl
      (mode ▸ enabled) after (blanks_of_request rfl ?_ ?_) <;> rintro rfl <;> cases opens
  | @activated d text c =>
    refine .of_plain answered ?_ after rfl
    split
    · exact Session.isPlain_of_decorations
    · exact List.forall_mem_nil _
  | @changed d text c =>
    refine .of_plain answered ?_ after rfl
    split
    · exact Session.isPlain_of_decorations
    · exact List.forall_mem_nil _
  | @saved d text c change =>
    refine .of_plain answered ?_ after rfl
    split
    · refine List.forall_mem_cons.mpr ⟨rfl, ?_⟩
      split
      · exact Session.isPlain_of_decorations
      · exact List.forall_mem_nil _
    · exact List.forall_mem_nil _
  | savedAndStarted idle starts =>
    exact .begins _ (events_of_answer answered) (handedOut_of_answer answered) rfl after rfl
  | shutDown => exact .of_plain answered (List.forall_mem_nil _) after rfl
  | @late a result c other =>
    refine .plain ?_ (handedOut_of_answer answered) ?_ after rfl
    · rw [events_of_answer answered]
      exact List.forall_mem_nil _
    · rintro b ⟨⟩
      exact other
  | discarded running =>
    exact .ends _ _ (events_of_answer answered) (List.forall_mem_singleton.mpr rfl)
      (handedOut_of_answer answered) rfl (by rw [running]; rfl) after rfl
  | failed running none =>
    exact .ends _ _ (events_of_answer answered) (List.forall_mem_singleton.mpr rfl)
      (handedOut_of_answer answered) rfl (by rw [running]; rfl) after rfl
  | takenUp running taken =>
    exact .ends _ _ (events_of_answer answered) Session.isPlain_of_shown
      (handedOut_of_answer answered) rfl (by rw [running]; rfl) after rfl
  | folders =>
    refine .plain ?_ (handedOut_of_answer answered) ?_ after rfl
    · rw [events_of_answer answered]
      exact List.forall_mem_nil _
    · intro a completed
      cases completed

end CostWatch

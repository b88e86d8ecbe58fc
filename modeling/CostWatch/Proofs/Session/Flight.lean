import CostWatch.Proofs.Session.Step
import Mathlib.Data.List.Nodup

/-!
The analyses of a session over its runs: which of them are outstanding, which are taken up and which
will not be taken up any more.

A session only notes the number of the analysis that it waits for. Over a run, this is the one
analysis that was handed out and has not ended; so what ends late or twice is not it.
-/

set_option autoImplicit false

namespace CostWatch

namespace Episode

def takenUp (e : Episode) : Option Analysis :=
  match e.occurrence with
  | .completion a result c => (e.session.takesUp? a result c).map fun _ => a
  | _ => none

end Episode

/-- The analyses that ended, the last one first. What ends twice stands here twice. -/
def completed (history : List Episode) : List Analysis :=
  history.filterMap Episode.completed

def takenUp (history : List Episode) : List Analysis :=
  history.filterMap Episode.takenUp

/-- The analyses that were handed out and have not ended. -/
def outstanding (history : List Episode) : List Analysis :=
  (handedOut history).filter fun a => a ∉ completed history

/-- The analyses that were outstanding at a moment when the session was disabled. -/
def overtaken : List Episode → List Analysis
  | [] => []
  | e :: earlier =>
    if e.disables then outstanding earlier ++ overtaken earlier else overtaken earlier

/-! What an episode does to the analysis that is running -/

/-- The cases of an episode, seen from the analysis that is running. -/
inductive Traffic (e : Episode) : Prop where
  /-- It goes on, or there is none. -/
  | kept : e.completed = none → e.disables = false → e.handedOut = none →
      e.next.running = e.session.running → e.next.nextId = e.session.nextId → Traffic e
  | begun (a : Analysis) : e.completed = none → e.disables = false → e.handedOut = some a →
      a.id = e.session.nextId → e.session.running = none → e.next.running = some ⟨a.id, false⟩ →
      e.next.nextId = e.session.nextId + 1 → Traffic e
  /-- Its result is of no use any more. -/
  | overtaken : e.completed = none → e.disables = true → e.handedOut = none →
      e.next.running = e.session.running.map Running.discarded →
      e.next.nextId = e.session.nextId → Traffic e
  /-- Another one ends, which counts for nothing. -/
  | late (a : Analysis) : e.completed = some a → e.disables = false → e.takenUp = none →
      e.session.running.map Running.id ≠ some a.id → e.answer = .ok .nothing →
      e.next = e.session → Traffic e
  /-- It ends, and nothing else changes. -/
  | dropped (a : Analysis) (outcome : Outcome) : e.completed = some a → e.disables = false →
      e.takenUp = none → e.session.running.map Running.id = some a.id → e.answer = .ok outcome →
      outcome.events ≠ [] → outcome.analysis = none →
      e.next = { e.session with running := none } → Traffic e
  /-- It ends and is taken up. -/
  | landed (a : Analysis) (outcome : Outcome) : e.completed = some a → e.disables = false →
      e.takenUp = some a → e.session.running = some ⟨a.id, false⟩ → e.answer = .ok outcome →
      outcome.events ≠ [] → outcome.analysis = none → e.next.running = none →
      e.next.nextId = e.session.nextId → Traffic e

theorem Session.takesUp?_eq_none {s : Session} {a : Analysis}
    (other : s.running ≠ some ⟨a.id, false⟩) (result : Except Failure (List UInt8))
    (c : Circumstances) : s.takesUp? a result c = none := by
  rw [Option.eq_none_iff_forall_ne_some]
  intro records taken
  exact other (takesUp?_eq_some_iff.mp taken).1

theorem Session.takesUp?_of_late {s : Session} {a : Analysis}
    (other : s.running.map Running.id ≠ some a.id) (result : Except Failure (List UInt8))
    (c : Circumstances) : s.takesUp? a result c = none :=
  takesUp?_eq_none (fun same => other (by rw [same]; rfl)) result c

theorem Session.takesUp?_of_discarded {s : Session} {a : Analysis}
    (running : s.running = some ⟨a.id, true⟩) (result : Except Failure (List UInt8))
    (c : Circumstances) : s.takesUp? a result c = none :=
  takesUp?_eq_none (by rw [running]; simp) result c

theorem Session.takesUp?_of_failure {s : Session} (a : Analysis) (f : Failure) (c : Circumstances) :
    s.takesUp? a (.error f) c = none := by
  rw [Option.eq_none_iff_forall_ne_some]
  intro records taken
  obtain ⟨_, report, _, _, ended, _⟩ := takesUp?_eq_some_iff.mp taken
  cases ended

theorem disables_iff {e : Episode} :
    e.disables = true ↔
      ∃ c outcome, e.occurrence = .request .disable c ∧ e.answer = .ok outcome := by
  constructor
  · intro disables
    unfold Episode.disables at disables
    split at disables
    · next c outcome asked answered => exact ⟨c, outcome, asked, answered⟩
    · cases disables
  · rintro ⟨c, outcome, asked, answered⟩
    unfold Episode.disables
    rw [asked, answered]

theorem disables_eq_false {e : Episode} {r : Request} {c : Circumstances}
    (asked : e.occurrence = .request r c) (other : r ≠ .disable) : e.disables = false := by
  rw [Bool.eq_false_iff, ne_eq, disables_iff]
  rintro ⟨_, _, disable, _⟩
  cases asked.symm.trans disable
  exact other rfl

theorem disables_of_failure {e : Episode} {f : Failure} (answered : e.answer = .error f) :
    e.disables = false := by
  rw [Bool.eq_false_iff, ne_eq, disables_iff]
  rintro ⟨_, _, _, succeeded⟩
  cases answered.symm.trans succeeded

theorem handedOut_of_answer {e : Episode} {outcome : Outcome} (answered : e.answer = .ok outcome) :
    e.handedOut = outcome.analysis := by
  rw [Episode.handedOut, answered]

theorem handedOut_of_failure {e : Episode} {f : Failure} (answered : e.answer = .error f) :
    e.handedOut = none := by
  rw [Episode.handedOut, answered]

theorem Session.Starts.ne_disable {s : Session} {r : Request} {purpose : Purpose}
    {document : Option Document} {job : Job} (starts : s.Starts r purpose document job) :
    r ≠ .disable := by
  cases starts <;> exact Request.noConfusion

theorem takenUp_of_completion (s : Session) (a : Analysis) (result : Except Failure (List UInt8))
    (c : Circumstances) :
    (Episode.mk s (.completion a result c)).takenUp = (s.takesUp? a result c).map fun _ => a :=
  rfl

theorem Traffic.of_events {s : Session} {r : Request} {c : Circumstances} {events : List Event}
    (answered : (Episode.mk s (.request r c)).answer = .ok (.ofEvents events))
    (other : r ≠ .disable) (running : (Episode.mk s (.request r c)).next.running = s.running)
    (nextId : (Episode.mk s (.request r c)).next.nextId = s.nextId) : Traffic ⟨s, .request r c⟩ :=
  .kept rfl (disables_eq_false rfl other) (handedOut_of_answer answered) running nextId

theorem Traffic.of_start {s idle : Session} {r : Request} {c : Circumstances} {purpose : Purpose}
    {document : Option Document} {job : Job}
    (met : s.meet (.request r c) = Session.answer (idle.start purpose document job))
    (other : r ≠ .disable) (running : s.running = none) (nextId : idle.nextId = s.nextId) :
    Traffic ⟨s, .request r c⟩ := by
  have answered : (Episode.mk s (.request r c)).answer = _ := congrArg Prod.fst met
  have after : (Episode.mk s (.request r c)).next = _ := congrArg Prod.snd met
  refine .begun ⟨idle.nextId, purpose, document, job⟩ rfl (disables_eq_false rfl other)
    (handedOut_of_answer answered) nextId running ?_ ?_
  · rw [after]
    rfl
  · rw [after, ← nextId]
    rfl

theorem starts_of_handedOut {e : Episode} {a : Analysis} (handed : e.handedOut = some a) :
    ∃ (t : Session) (r : Request), t.config = e.session.config ∧ t.mode = e.session.mode ∧
      e.next.mode = e.session.mode ∧ t.Starts r a.purpose a.document a.job ∧
      (r = .reExecute ∨ ∃ c, e.occurrence = .request r c) := by
  obtain ⟨s, o⟩ := e
  have step := s.step_meet o
  have answered : (Episode.mk s o).answer = (s.meet o).1 := rfl
  have after : (Episode.mk s o).next = (s.meet o).2 := rfl
  generalize (s.meet o).1 = answer at step answered
  generalize (s.meet o).2 = next at step after
  rw [Episode.handedOut, answered] at handed
  rw [after]
  cases step with
  | started idle notLoaded starts =>
    cases handed
    exact ⟨s, _, rfl, rfl, rfl, starts, .inr ⟨_, rfl⟩⟩
  | savedAndStarted idle starts =>
    cases handed
    exact ⟨s.saved _ _, _, rfl, rfl, rfl, starts, .inl rfl⟩
  | @exempted r c ledger told exempts => cases told <;> cases handed
  | _ => cases handed

theorem traffic (e : Episode) : Traffic e := by
  obtain ⟨s, o⟩ := e
  have step := s.step_meet o
  generalize met : s.meet o = m at step
  obtain ⟨answer, next⟩ := m
  have answered : (Episode.mk s o).answer = answer := congrArg Prod.fst met
  have after : (Episode.mk s o).next = next := congrArg Prod.snd met
  have running := congrArg Session.running after
  have nextId := congrArg Session.nextId after
  cases step with
  | @refused r c f asks notLoaded =>
    exact .kept rfl (disables_of_failure answered) (handedOut_of_failure answered) running nextId
  | loadedFile idle loads => exact .of_events answered Request.noConfusion running nextId
  | loadedProject idle words loads => exact .of_events answered Request.noConfusion running nextId
  | started idle notLoaded starts => exact .of_start met starts.ne_disable idle rfl
  | @disabled c enabled =>
    refine .overtaken rfl ?_ (handedOut_of_answer answered) running nextId
    rw [Episode.disables, answered]
  | cleanedInPart idle =>
    exact .kept rfl (disables_eq_false rfl Request.noConfusion) (handedOut_of_failure answered)
      running nextId
  | cleaned idle => exact .of_events answered Request.noConfusion running nextId
  | @exempted r c ledger told exempts =>
    refine .kept rfl (disables_eq_false rfl ?_) ?_ running nextId
    · rintro rfl
      cases exempts
    · cases told with
      | error f => exact handedOut_of_failure answered
      | ok message => exact handedOut_of_answer answered
  | @opened r c panel title html opens enabled =>
    refine .of_events answered ?_ running nextId
    rintro rfl
    cases opens
  | activated => exact .of_events answered Request.noConfusion running nextId
  | changed => exact .of_events answered Request.noConfusion running nextId
  | saved => exact .of_events answered Request.noConfusion running nextId
  | savedAndStarted idle starts => exact .of_start met Request.noConfusion idle rfl
  | shutDown => exact .of_events answered Request.noConfusion running nextId
  | @late a result c other =>
    refine .late a rfl rfl ?_ other answered after
    rw [takenUp_of_completion, Session.takesUp?_of_late other]
    rfl
  | @discarded a result c message same =>
    refine .dropped a _ rfl rfl ?_ (by rw [same]; rfl) answered (List.cons_ne_nil _ _) rfl after
    rw [takenUp_of_completion, Session.takesUp?_of_discarded same]
    rfl
  | @failed a result c f same none =>
    refine .dropped a _ rfl rfl ?_ (by rw [same]; rfl) answered (List.cons_ne_nil _ _) rfl after
    rw [takenUp_of_completion, none]
    rfl
  | @takenUp a result c records ids ledger message same taken recorded =>
    refine .landed a _ rfl rfl ?_ same answered (List.cons_ne_nil _ _) rfl running nextId
    rw [takenUp_of_completion, taken]
    rfl
  | folders => exact .kept rfl rfl (handedOut_of_answer answered) running nextId

/-! What a run keeps to -/

section
variable {e : Episode} {history : List Episode} {s : Session} {a b : Analysis}

theorem handedOut_cons : handedOut (e :: history) = e.handedOut.toList ++ handedOut history := by
  cases h : e.handedOut <;> simp [handedOut, h]

theorem completed_cons : completed (e :: history) = e.completed.toList ++ completed history := by
  cases h : e.completed <;> simp [completed, h]

theorem takenUp_cons : takenUp (e :: history) = e.takenUp.toList ++ takenUp history := by
  cases h : e.takenUp <;> simp [takenUp, h]

theorem handedOut_cons_of_none (none : e.handedOut = none) :
    handedOut (e :: history) = handedOut history := by
  rw [handedOut_cons, none]
  rfl

theorem completed_cons_of_none (none : e.completed = none) :
    completed (e :: history) = completed history := by
  rw [completed_cons, none]
  rfl

theorem mem_outstanding :
    a ∈ outstanding history ↔ a ∈ handedOut history ∧ a ∉ completed history := by
  simp [outstanding]

theorem outstanding_kept (completed : e.completed = none) (handedOut : e.handedOut = none) :
    outstanding (e :: history) = outstanding history := by
  simp [outstanding, completed_cons, handedOut_cons, completed, handedOut]

theorem outstanding_begun (none : e.completed = none) (begun : e.handedOut = some a)
    (new : a ∉ completed history) : outstanding (e :: history) = a :: outstanding history := by
  simp [outstanding, completed_cons, handedOut_cons, none, begun, new]

theorem outstanding_ended (ended : e.completed = some a) (none : e.handedOut = none) :
    outstanding (e :: history) = (outstanding history).filter (· ≠ a) := by
  simp only [outstanding, completed_cons, handedOut_cons, ended, none, List.filter_filter]
  simp

theorem takenUp_eq_none (completed : e.completed = none) : e.takenUp = none := by
  obtain ⟨s, o⟩ := e
  cases o with
  | completion a result c => cases completed
  | request r c => rfl
  | folders cache output => rfl

theorem takenUp_cons_of_none (none : e.completed = none) :
    takenUp (e :: history) = takenUp history := by
  rw [takenUp_cons, takenUp_eq_none none]
  rfl

theorem known_of_follows (follows : e.occurrence.Follows history) (ended : e.completed = some a) :
    a ∈ handedOut history := by
  obtain ⟨s, o⟩ := e
  cases o with
  | completion b result c =>
    cases ended
    exact follows
  | request r c => cases ended
  | folders cache output => cases ended

/-- What links a history to the session at its end. -/
structure Tracked (history : List Episode) (s : Session) : Prop where
  distinct : ((handedOut history).map Analysis.id).Nodup
  below : ∀ a ∈ handedOut history, a.id < s.nextId
  /-- Only what was handed out ends. -/
  known : ∀ a ∈ completed history, a ∈ handedOut history
  /-- The session waits for what is outstanding. -/
  slot : (outstanding history).map Analysis.id = (s.running.map Running.id).toList
  ended : ∀ a ∈ takenUp history, a ∈ completed history
  once : (takenUp history).Nodup
  /-- What was overtaken is not taken up; while it is outstanding, the session will discard it. -/
  void : ∀ a ∈ overtaken history, a ∈ handedOut history ∧ a ∉ takenUp history ∧
    (a ∈ outstanding history → s.running = some ⟨a.id, true⟩)

namespace Tracked

theorem eq_of_id (tracked : Tracked history s) (left : a ∈ handedOut history)
    (right : b ∈ handedOut history) (same : a.id = b.id) : a = b :=
  List.inj_on_of_nodup_map tracked.distinct left right same

theorem mem_outstanding_iff (tracked : Tracked history s) (known : a ∈ handedOut history) :
    a ∈ outstanding history ↔ s.running.map Running.id = some a.id := by
  have slot : a.id ∈ (outstanding history).map Analysis.id ↔
      s.running.map Running.id = some a.id := by
    rw [tracked.slot, Option.mem_toList]
  rw [← slot]
  constructor
  · exact List.mem_map_of_mem
  · intro listed
    obtain ⟨b, outstanding, same⟩ := List.mem_map.mp listed
    have handed := (mem_outstanding.mp outstanding).1
    exact tracked.eq_of_id handed known same ▸ outstanding

theorem outstanding_eq_nil (tracked : Tracked history s) (idle : s.running = none) :
    outstanding history = [] := by
  have slot := tracked.slot
  rw [idle] at slot
  exact List.map_eq_nil_iff.mp slot

theorem outstanding_eq (tracked : Tracked history s) (member : a ∈ outstanding history) :
    outstanding history = [a] := by
  have running := (tracked.mem_outstanding_iff (mem_outstanding.mp member).1).mp member
  have slot := tracked.slot
  rw [running, Option.toList_some] at slot
  obtain ⟨b, only, same⟩ := List.map_eq_singleton_iff.mp slot
  rw [only, List.mem_singleton] at member
  rw [only, member]

theorem outstanding_ended_eq_nil (tracked : Tracked history s) (ended : e.completed = some a)
    (nothing : e.handedOut = none) (known : a ∈ handedOut history)
    (inFlight : s.running.map Running.id = some a.id) : outstanding (e :: history) = [] := by
  have only := tracked.outstanding_eq ((tracked.mem_outstanding_iff known).mpr inFlight)
  rw [outstanding_ended ended nothing, only]
  simp

/-- What ends without being awaited was not outstanding. -/
theorem outstanding_late (tracked : Tracked history s) (ended : e.completed = some a)
    (nothing : e.handedOut = none) (known : a ∈ handedOut history)
    (late : s.running.map Running.id ≠ some a.id) :
    outstanding (e :: history) = outstanding history := by
  have notOutstanding : a ∉ outstanding history :=
    fun member => late ((tracked.mem_outstanding_iff known).mp member)
  rw [outstanding_ended ended nothing]
  exact List.filter_eq_self.mpr fun b member =>
    decide_eq_true fun same => notOutstanding (same ▸ member)

end Tracked

theorem tracked_of_idle (idle : s.running = none) : Tracked [] s where
  distinct := .nil
  below := by simp [handedOut]
  known := by simp [completed]
  slot := by simp [outstanding, handedOut, idle]
  ended := by simp [takenUp]
  once := .nil
  void := by simp [overtaken]

theorem tracked_new (config : Config) (directory : String) (extract : Extractor) (ledger : Ledger)
    (cache output : Folder) : Tracked [] (.new config directory extract ledger cache output) :=
  tracked_of_idle rfl

namespace Tracked

variable {t : Session}

theorem quiet (tracked : Tracked history s) (completed : e.completed = none)
    (handedOut : e.handedOut = none)
    (running : t.running.map Running.id = s.running.map Running.id) (nextId : t.nextId = s.nextId)
    (void : ∀ a ∈ overtaken (e :: history), a ∈ CostWatch.handedOut history ∧
      a ∉ takenUp history ∧ (a ∈ outstanding history → t.running = some ⟨a.id, true⟩)) :
    Tracked (e :: history) t := by
  have sameHanded : CostWatch.handedOut (e :: history) = CostWatch.handedOut history :=
    handedOut_cons_of_none handedOut
  have sameCompleted : CostWatch.completed (e :: history) = CostWatch.completed history :=
    completed_cons_of_none completed
  have sameTaken : takenUp (e :: history) = takenUp history := takenUp_cons_of_none completed
  have sameOutstanding : outstanding (e :: history) = outstanding history :=
    outstanding_kept completed handedOut
  refine ⟨?_, ?_, ?_, ?_, ?_, ?_, ?_⟩
  · rw [sameHanded]
    exact tracked.distinct
  · rw [sameHanded, nextId]
    exact tracked.below
  · rw [sameCompleted, sameHanded]
    exact tracked.known
  · rw [sameOutstanding, running]
    exact tracked.slot
  · rw [sameTaken, sameCompleted]
    exact tracked.ended
  · rw [sameTaken]
    exact tracked.once
  · rw [sameHanded, sameTaken, sameOutstanding]
    exact void

/-- An episode in which an analysis ends. It may be taken up only if the session waits for it and
will not discard it. -/
theorem ending (tracked : Tracked history s) (completed : e.completed = some a)
    (handedOut : e.handedOut = none) (disables : e.disables = false)
    (known : a ∈ CostWatch.handedOut history) (nextId : t.nextId = s.nextId)
    (slot : (outstanding (e :: history)).map Analysis.id = (t.running.map Running.id).toList)
    (stays : outstanding (e :: history) = [] ∨ t.running = s.running)
    (taken : e.takenUp = none ∨ e.takenUp = some a ∧ s.running = some ⟨a.id, false⟩) :
    Tracked (e :: history) t := by
  have sameHanded : CostWatch.handedOut (e :: history) = CostWatch.handedOut history :=
    handedOut_cons_of_none handedOut
  have moreCompleted : CostWatch.completed (e :: history) = a :: CostWatch.completed history := by
    rw [completed_cons, completed]
    rfl
  have sameOvertaken : overtaken (e :: history) = overtaken history := by
    rw [overtaken, disables]
    rfl
  have fewer : ∀ b ∈ outstanding (e :: history), b ∈ outstanding history := by
    rw [outstanding_ended completed handedOut]
    exact fun b member => (List.mem_filter.mp member).1
  have awaited (running : s.running = some ⟨a.id, false⟩) : a ∈ outstanding history := by
    rw [tracked.mem_outstanding_iff known, running]
    rfl
  have void : ∀ b ∈ overtaken history, b ∈ outstanding (e :: history) →
      t.running = some ⟨b.id, true⟩ := by
    intro b member still
    rcases stays with none | same
    · rw [none] at still
      cases still
    · exact same ▸ (tracked.void b member).2.2 (fewer b still)
  refine ⟨sameHanded ▸ tracked.distinct, ?_, ?_, slot, ?_, ?_, ?_⟩
  · rw [sameHanded, nextId]
    exact tracked.below
  · rw [moreCompleted, sameHanded]
    exact List.forall_mem_cons.mpr ⟨known, tracked.known⟩
  · rw [takenUp_cons, moreCompleted]
    intro b member
    rcases List.mem_append.mp member with now | before
    · rcases taken with none | ⟨some, running⟩
      · rw [none] at now
        cases now
      · rw [some, Option.toList_some] at now
        exact List.mem_cons.mpr (.inl (List.mem_singleton.mp now))
    · exact List.mem_cons_of_mem a (tracked.ended b before)
  · rw [takenUp_cons]
    rcases taken with none | ⟨some, running⟩
    · rw [none]
      exact tracked.once
    · rw [some]
      refine List.nodup_cons.mpr ⟨fun before => ?_, tracked.once⟩
      exact (mem_outstanding.mp (awaited running)).2 (tracked.ended a before)
  · rw [sameOvertaken, sameHanded, takenUp_cons]
    intro b member
    obtain ⟨handed, notTaken, discarded⟩ := tracked.void b member
    refine ⟨handed, fun listed => ?_, void b member⟩
    rcases List.mem_append.mp listed with now | before
    · rcases taken with none | ⟨some, running⟩
      · rw [none] at now
        cases now
      · -- While it was outstanding, the session was to discard what it takes up now.
        rw [some, Option.toList_some, List.mem_singleton] at now
        have clash := running.symm.trans (now ▸ discarded (now ▸ awaited running))
        cases clash
    · exact notTaken before

end Tracked

theorem tracked_next (tracked : Tracked history e.session)
    (follows : e.occurrence.Follows history) : Tracked (e :: history) e.next := by
  have known {a : Analysis} (ended : e.completed = some a) : a ∈ handedOut history :=
    known_of_follows follows ended
  cases traffic e with
  | kept none enabled nothing running nextId =>
    refine tracked.quiet none nothing (congrArg _ running) nextId ?_
    rw [overtaken, enabled]
    intro a member
    obtain ⟨handed, notTaken, discarded⟩ := tracked.void a member
    exact ⟨handed, notTaken, fun still => running.trans (discarded still)⟩
  | overtaken none disables nothing running nextId =>
    refine tracked.quiet none nothing ?_ nextId ?_
    · rw [running, Option.map_map]
      rfl
    rw [overtaken, disables]
    intro a member
    -- What is outstanding now is overtaken, and what was overtaken before stays so.
    rcases List.mem_append.mp member with still | earlier
    · obtain ⟨handed, notEnded⟩ := mem_outstanding.mp still
      refine ⟨handed, fun taken => notEnded (tracked.ended a taken), fun _ => ?_⟩
      obtain ⟨r, runs, same⟩ :=
        Option.map_eq_some_iff.mp ((tracked.mem_outstanding_iff handed).mp still)
      rw [running, runs, ← same]
      rfl
    · obtain ⟨handed, notTaken, discarded⟩ := tracked.void a earlier
      refine ⟨handed, notTaken, fun still => ?_⟩
      rw [running, discarded still]
      rfl
  | begun a none enabled begun id idle running nextId =>
    -- The number is above all that were given before, so the analysis is a new one.
    have new : a ∉ handedOut history := fun old => Nat.ne_of_lt (tracked.below a old) id
    have moreHanded : handedOut (e :: history) = a :: handedOut history := by
      rw [handedOut_cons, begun]
      rfl
    have sameTaken : takenUp (e :: history) = takenUp history := takenUp_cons_of_none none
    have sameCompleted : completed (e :: history) = completed history :=
      completed_cons_of_none none
    have onlyOutstanding : outstanding (e :: history) = [a] := by
      rw [outstanding_begun none begun fun old => new (tracked.known a old),
        tracked.outstanding_eq_nil idle]
    refine ⟨?_, ?_, ?_, ?_, ?_, sameTaken ▸ tracked.once, ?_⟩
    · rw [moreHanded, List.map_cons, List.nodup_cons]
      refine ⟨fun old => ?_, tracked.distinct⟩
      obtain ⟨b, member, same⟩ := List.mem_map.mp old
      exact Nat.ne_of_lt (tracked.below b member) (same.trans id)
    · rw [moreHanded, nextId, List.forall_mem_cons]
      exact ⟨Nat.lt_succ_of_le (Nat.le_of_eq id),
        fun b member => Nat.lt_succ_of_lt (tracked.below b member)⟩
    · rw [sameCompleted, moreHanded]
      exact fun b member => List.mem_cons_of_mem a (tracked.known b member)
    · rw [onlyOutstanding, running]
      rfl
    · rw [sameTaken, sameCompleted]
      exact tracked.ended
    · rw [overtaken, enabled, moreHanded, sameTaken, onlyOutstanding]
      intro b member
      obtain ⟨handed, notTaken, discarded⟩ := tracked.void b member
      refine ⟨List.mem_cons_of_mem a handed, notTaken, fun same => ?_⟩
      exact absurd (List.mem_singleton.mp same ▸ handed) new
  | late a ended enabled none other answer same =>
    have nothing := handedOut_of_answer answer
    rw [same]
    refine tracked.ending ended nothing enabled (known ended) rfl ?_ (.inr rfl) (.inl none)
    rw [tracked.outstanding_late ended nothing (known ended) other]
    exact tracked.slot
  | dropped a outcome ended enabled none inFlight answer events analysis same =>
    have nothing := (handedOut_of_answer answer).trans analysis
    have nil := tracked.outstanding_ended_eq_nil ended nothing (known ended) inFlight
    rw [same]
    refine tracked.ending ended nothing enabled (known ended) rfl ?_ (.inl nil) (.inl none)
    rw [nil]
    rfl
  | landed a outcome ended enabled taken inFlight answer events analysis running nextId =>
    have nothing := (handedOut_of_answer answer).trans analysis
    have nil := tracked.outstanding_ended_eq_nil ended nothing (known ended) (by rw [inFlight]; rfl)
    refine tracked.ending ended nothing enabled (known ended) nextId ?_ (.inl nil)
      (.inr ⟨taken, inFlight⟩)
    rw [nil, running]
    rfl

theorem tracked_of_run {start : Session} (fresh : Tracked [] start) (run : Run start history s) :
    Tracked history s := by
  induction run with
  | start => exact fresh
  | next run follows ih => exact tracked_next ih follows

end

/-! One analysis at a time, each taken up at most once -/

def Episode.HasEffect (e : Episode) : Prop :=
  e.answer ≠ .ok .nothing ∨ e.next ≠ e.session

theorem completed_of_request {e : Episode} {r : Request} {c : Circumstances}
    (asked : e.occurrence = .request r c) : e.completed = none := by
  rw [Episode.completed, asked]

theorem busy_iff_handedOut {e : Episode} {r : Request} {c : Circumstances}
    (asked : e.occurrence = .request r c) :
    (e.session.isBusy = false ∧ e.next.isBusy = true) ↔ e.handedOut ≠ none := by
  have notEnded := completed_of_request asked
  unfold Session.isBusy
  cases traffic e with
  | kept none enabled nothing running nextId => simp [nothing, running]
  | begun a none enabled begun id idle running nextId => simp [begun, idle, running]
  | overtaken none disables nothing running nextId => simp [nothing, running]
  | late a ended => cases notEnded.symm.trans ended
  | dropped a outcome ended => cases notEnded.symm.trans ended
  | landed a outcome ended => cases notEnded.symm.trans ended

theorem running_of_handedOut {e : Episode} {a : Analysis} (handed : e.handedOut = some a) :
    e.session.running = none ∧ e.next.running = some ⟨a.id, false⟩ := by
  cases traffic e with
  | kept none enabled nothing running nextId => cases nothing.symm.trans handed
  | begun b none enabled begun id idle running nextId =>
    cases begun.symm.trans handed
    exact ⟨idle, running⟩
  | overtaken none disables nothing running nextId => cases nothing.symm.trans handed
  | late b ended enabled none other answer same =>
    cases (handedOut_of_answer answer).symm.trans handed
  | dropped b outcome ended enabled none inFlight answer events analysis same =>
    cases ((handedOut_of_answer answer).trans analysis).symm.trans handed
  | landed b outcome ended enabled taken inFlight answer events analysis running nextId =>
    cases ((handedOut_of_answer answer).trans analysis).symm.trans handed

theorem completion_cases {e : Episode} {a : Analysis} (ended : e.completed = some a) :
    (e.session.running.map Running.id ≠ some a.id ∧ e.answer = .ok .nothing ∧
        e.next = e.session) ∨
      (e.session.running.map Running.id = some a.id ∧ e.answer ≠ .ok .nothing ∧
        e.next.running = none ∧
        (e.takenUp = none → e.next = { e.session with running := none })) := by
  have named {outcome : Outcome} (events : outcome.events ≠ []) (answer : e.answer = .ok outcome) :
      e.answer ≠ .ok .nothing := by
    rw [answer]
    rintro ⟨⟩
    exact events rfl
  cases traffic e with
  | kept none enabled nothing running nextId => cases none.symm.trans ended
  | begun b none enabled begun id idle running nextId => cases none.symm.trans ended
  | overtaken none disables nothing running nextId => cases none.symm.trans ended
  | late b late enabled none other answer same =>
    cases late.symm.trans ended
    exact .inl ⟨other, answer, same⟩
  | dropped b outcome dropped enabled none inFlight answer events analysis same =>
    cases dropped.symm.trans ended
    exact .inr ⟨inFlight, named events answer, by rw [same], fun _ => same⟩
  | landed b outcome landed enabled taken inFlight answer events analysis running nextId =>
    cases landed.symm.trans ended
    exact .inr ⟨by rw [inFlight]; rfl, named events answer, running,
      fun none => by cases none.symm.trans taken⟩

/-- How the analyses of a session fare in a history that ends with a session. -/
structure SingleFlight (history : List Episode) (s : Session) : Prop where
  atMostOne : (outstanding history).length ≤ 1
  busy : s.isBusy = true ↔ outstanding history ≠ []
  distinct : ((handedOut history).map Analysis.id).Nodup
  /-- A request makes the session busy exactly if it hands out an analysis. -/
  begins : ∀ e ∈ history, ∀ r c, e.occurrence = .request r c →
    (e.session.isBusy = false ∧ e.next.isBusy = true ↔ e.handedOut ≠ none)
  /-- What is handed out is what the session waits for then. -/
  awaited : ∀ e ∈ history, ∀ a, e.handedOut = some a → e.next.running = some ⟨a.id, false⟩
  /-- What the session waits for is outstanding, and the other way round. -/
  inFlight : ∀ e earlier, e :: earlier <:+ history → ∀ a, e.completed = some a →
    (a ∈ outstanding earlier ↔ e.session.running.map Running.id = some a.id)
  /-- What ends has an effect exactly if the session waits for it; it no longer waits then. -/
  effective : ∀ e ∈ history, ∀ a, e.completed = some a →
    (e.HasEffect ↔ e.session.running.map Running.id = some a.id) ∧
      (e.HasEffect → e.next.running = none)
  /-- What ends late or again leaves the session as it is, with what it waits for. -/
  late : ∀ e earlier, e :: earlier <:+ history → ∀ a, e.completed = some a →
    a ∉ outstanding earlier → e.answer = .ok .nothing ∧ e.next = e.session
  /-- What ends without being taken up changes nothing but what the session waits for. -/
  spared : ∀ e ∈ history, e.completed ≠ none → e.takenUp = none →
    e.next = { e.session with running := e.next.running }
  once : ((takenUp history).map Analysis.id).Nodup
  /-- What was outstanding when the session was disabled is never taken up. -/
  void : ∀ a ∈ overtaken history, a.id ∉ (takenUp history).map Analysis.id

theorem single_flight {config : Config} {directory : String} {extract : Extractor} {ledger : Ledger}
    {cache output : Folder} {history : List Episode} {s : Session}
    (run : Run (.new config directory extract ledger cache output) history s) :
    SingleFlight history s := by
  have fresh := tracked_new config directory extract ledger cache output
  have tracked := tracked_of_run fresh run
  have before {e : Episode} {earlier : List Episode} (within : e :: earlier <:+ history) :
      Tracked earlier e.session :=
    tracked_of_run fresh (run.of_suffix within).1
  have awaits {e : Episode} {earlier : List Episode} {a : Analysis}
      (within : e :: earlier <:+ history) (ended : e.completed = some a) :
      a ∈ outstanding earlier ↔ e.session.running.map Running.id = some a.id :=
    (before within).mem_outstanding_iff
      (known_of_follows (run.of_suffix within).2 ended)
  have handed {a : Analysis} (taken : a ∈ takenUp history) : a ∈ handedOut history :=
    tracked.known a (tracked.ended a taken)
  have slot : s.isBusy = true ↔ (outstanding history).map Analysis.id ≠ [] := by
    rw [tracked.slot, Session.isBusy]
    cases s.running <;> simp
  constructor
  case atMostOne =>
    rw [← List.length_map Analysis.id, tracked.slot]
    cases s.running <;> simp
  case busy => rw [slot, ne_eq, List.map_eq_nil_iff]
  case distinct => exact tracked.distinct
  case begins => exact fun e _ r c asked => busy_iff_handedOut asked
  case awaited => exact fun e _ a handed => (running_of_handedOut handed).2
  case inFlight => exact fun e earlier within a ended => awaits within ended
  case effective =>
    intro e _ a ended
    rcases completion_cases ended with ⟨other, answer, same⟩ | ⟨inFlight, answer, idle, _⟩
    · have none : ¬e.HasEffect := by
        rintro (told | changed)
        · exact told answer
        · exact changed same
      exact ⟨iff_of_false none other, fun effect => absurd effect none⟩
    · exact ⟨iff_of_true (.inl answer) inFlight, fun _ => idle⟩
  case late =>
    intro e earlier within a ended notOutstanding
    rcases completion_cases ended with ⟨_, answer, same⟩ | ⟨inFlight, _⟩
    · exact ⟨answer, same⟩
    · exact absurd ((awaits within ended).mpr inFlight) notOutstanding
  case spared =>
    intro e _ ends notTaken
    obtain ⟨a, ended⟩ := Option.ne_none_iff_exists'.mp ends
    rcases completion_cases ended with ⟨_, _, same⟩ | ⟨_, _, idle, spared⟩
    · rw [same]
    · rw [idle]
      exact spared notTaken
  case once =>
    -- Different analyses have different numbers, so that the numbers do not repeat either.
    exact List.Nodup.map_on
      (fun a left b right same => tracked.eq_of_id (handed left) (handed right) same) tracked.once
  case void =>
    intro a member listed
    obtain ⟨known, notTaken, _⟩ := tracked.void a member
    obtain ⟨b, taken, same⟩ := List.mem_map.mp listed
    exact notTaken (tracked.eq_of_id (handed taken) known same ▸ taken)

/-- An analysis is overtaken by a disabling, another one is taken up, and both end twice. -/
theorem single_flight_overtaken :
    ∃ history s, Run Sample.session history s ∧ SingleFlight history s ∧
      (overtaken history).map Analysis.id = [2] ∧ (takenUp history).map Analysis.id = [3, 1] ∧
      (completed history).map Analysis.id = [2, 3, 2, 2, 1] := by
  let first := Sample.analysis 1 (.enable .file)
  let second := Sample.analysis 2 .reExecute
  let third := Sample.analysis 3 .reExecute
  let occurrences := [Sample.completion second, Sample.completion third, Sample.completion second,
    Sample.request .reExecute, Sample.request .enableForFile, Sample.completion second,
    Sample.request .disable, Sample.request .reExecute, Sample.completion first,
    Sample.request .enableForFile,
    Sample.request (.documentActivated Sample.document "class A \x7b")]
  have run := run_traced (show Feasible Sample.session occurrences by decide +kernel)
  exact ⟨_, _, run, single_flight run, by decide +kernel, by decide +kernel, by decide +kernel⟩

end CostWatch

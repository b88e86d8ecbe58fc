import CostWatch.Proofs.Host.Lines
import CostWatch.Proofs.Session.Flight
import Mathlib.Algebra.Order.Group.Multiset

/-!
The analyses that a host runs and waits for.

An analysis that is started works on its own. Once it has finished, with a report or without, the
host can receive what it brings. Input, finishing and receiving come in any order. Whatever the
order, the session is busy exactly while one analysis is not received; so a host that is done with
its input waits for that analysis, and for no other.
-/

set_option autoImplicit false

namespace CostWatch

/-- A host with the analyses that work for it and those that have finished and are not received. -/
structure Service where
  host : Host
  working : Multiset Analysis
  finished : Multiset (Analysis × Except Failure (List UInt8))

inductive Happening where
  | byte (b : UInt8) (c : Circumstances)
  | inputEnds (c : Circumstances)
  /-- An analysis ends: with a report, or with a failure of whatever kind. -/
  | finishes (a : Analysis) (result : Except Failure (List UInt8))
  | receives (a : Analysis) (result : Except Failure (List UInt8)) (c : Circumstances)

namespace Happening

def byte? : Happening → Option UInt8
  | .byte b _ => some b
  | _ => none

def endsInput : Happening → Bool
  | .inputEnds _ => true
  | _ => false

def received? : Happening → Option Analysis
  | .receives a _ _ => some a
  | _ => none

end Happening

namespace Service

def new (s : Session) : Service :=
  ⟨.new s, 0, 0⟩

def awaited (v : Service) : Multiset Analysis :=
  v.working + v.finished.map Prod.fst

/-- What can happen, with the effects of it. The host goes on only until it is over. -/
inductive Step : Service → Happening → List Effect → Service → Prop where
  | byte {h : Host} {working : Multiset Analysis}
      {finished : Multiset (Analysis × Except Failure (List UInt8))} {b : UInt8}
      {c : Circumstances} : h.reading = true →
      Step ⟨h, working, finished⟩ (.byte b c) (h.readByte b c).1
        ⟨(h.readByte b c).2, startedBy (h.readByte b c).1 + working, finished⟩
  | inputEnds {h : Host} {working : Multiset Analysis}
      {finished : Multiset (Analysis × Except Failure (List UInt8))} {c : Circumstances} :
      h.reading = true →
      Step ⟨h, working, finished⟩ (.inputEnds c) (h.inputOver c).1
        ⟨(h.inputOver c).2, startedBy (h.inputOver c).1 + working, finished⟩
  | finishes {h : Host} {working : Multiset Analysis}
      {finished : Multiset (Analysis × Except Failure (List UInt8))} {a : Analysis}
      {result : Except Failure (List UInt8)} :
      Step ⟨h, a ::ₘ working, finished⟩ (.finishes a result) []
        ⟨h, working, (a, result) ::ₘ finished⟩
  | receives {h : Host} {working : Multiset Analysis}
      {finished : Multiset (Analysis × Except Failure (List UInt8))} {a : Analysis}
      {result : Except Failure (List UInt8)} {c : Circumstances} : h.isOver = false →
      Step ⟨h, working, (a, result) ::ₘ finished⟩ (.receives a result c)
        (h.completed a result c).1 ⟨(h.completed a result c).2, working, finished⟩

end Service

structure Stage where
  service : Service
  happening : Happening
  effects : List Effect

/-- The runs of a service, with their stages, the last one first. -/
inductive Serving (first : Service) : List Stage → Service → Prop where
  | start : Serving first [] first
  | next {history : List Stage} {v w : Service} {happening : Happening} {effects : List Effect} :
      Serving first history v → v.Step happening effects w →
      Serving first (⟨v, happening, effects⟩ :: history) w

def started (history : List Stage) : List Analysis :=
  history.flatMap fun stage => startedBy stage.effects

def received (history : List Stage) : List Analysis :=
  history.filterMap (·.happening.received?)

def bytesRead (history : List Stage) : List UInt8 :=
  history.reverse.filterMap (·.happening.byte?)

/-- The input is over if it has ended, or if one of its lines asked to shut down. -/
def InputOver (history : List Stage) : Prop :=
  (∃ stage ∈ history, stage.happening.endsInput = true) ∨
    ∃ line ∈ (cut [] (bytesRead history)).1, asksShutdown line = true

/-! What a step does to the session -/

theorem startedBy_effects (o : Outcome) : startedBy o.effects = o.analysis.toList := by
  have sent : startedBy (o.events.map .send) = [] := by
    rw [startedBy, List.filterMap_map]
    exact List.filterMap_eq_nil_iff.mpr fun _ _ => rfl
  have run : startedBy (o.analysis.toList.map .start) = o.analysis.toList := by
    cases o.analysis <;> rfl
  rw [Outcome.effects, startedBy, List.filterMap_append, ← startedBy, ← startedBy, sent, run,
    List.nil_append]

/-- A session has met a request, or nothing; the effects start what it handed out. -/
def Passes (s : Session) (effects : List Effect) (next : Session) : Prop :=
  (startedBy effects = [] ∧ next = s) ∨
    ∃ r c, startedBy effects = (Episode.mk s (.request r c)).handedOut.toList ∧
      next = (Episode.mk s (.request r c)).next

theorem passes_takeLine (h : Host) (c : Circumstances) :
    Passes h.session (h.takeLine c).1 (h.takeLine c).2.session := by
  rw [Host.takeLine_eq]
  unfold Session.takeLine
  split
  · exact .inl ⟨rfl, rfl⟩
  · next r found =>
    by_cases shutdown : r = .shutdown
    · rw [if_pos shutdown]
      exact .inl ⟨rfl, rfl⟩
    · rw [if_neg shutdown]
      refine .inr ⟨r, c, ?_⟩
      cases handled : h.session.handle r c with
      | mk answer next =>
        have answered : (Episode.mk h.session (.request r c)).answer = answer :=
          congrArg Prod.fst handled
        have after : (Episode.mk h.session (.request r c)).next = next :=
          congrArg Prod.snd handled
        rw [after]
        cases answer with
        | error f =>
          rw [handedOut_of_failure answered]
          exact ⟨rfl, rfl⟩
        | ok outcome =>
          rw [handedOut_of_answer answered, ← startedBy_effects]
          exact ⟨rfl, rfl⟩
  · exact .inl ⟨rfl, rfl⟩

theorem passes_readByte (h : Host) (b : UInt8) (c : Circumstances) :
    Passes h.session (h.readByte b c).1 (h.readByte b c).2.session := by
  unfold Host.readByte
  split
  · dsimp only
    split
    · exact passes_takeLine { h with line := b :: h.line, readByCall := h.readByCall + 1 } c
    · exact .inl ⟨rfl, rfl⟩
  · exact .inl ⟨rfl, rfl⟩

theorem passes_inputOver (h : Host) (c : Circumstances) :
    Passes h.session (h.inputOver c).1 (h.inputOver c).2.session := by
  unfold Host.inputOver
  split
  · exact passes_takeLine h c
  · exact .inl ⟨rfl, rfl⟩

theorem handedOut_of_completed {e : Episode} {a : Analysis} (ended : e.completed = some a) :
    e.handedOut = none := by
  cases traffic e with
  | kept none | begun _ none | overtaken none => cases none.symm.trans ended
  | late _ _ _ _ _ answer _ => exact handedOut_of_answer answer
  | dropped _ _ _ _ _ _ answer _ analysis _ | landed _ _ _ _ _ _ answer _ analysis _ _ =>
    exact (handedOut_of_answer answer).trans analysis

theorem startedBy_completed (h : Host) (a : Analysis) (result : Except Failure (List UInt8))
    (c : Circumstances) : startedBy (h.completed a result c).1 = [] := by
  have nothing := handedOut_of_completed (e := ⟨h.session, .completion a result c⟩) rfl
  rw [handedOut_of_answer rfl] at nothing
  change startedBy (h.session.complete a result c).1.effects = []
  rw [startedBy_effects, nothing]
  rfl

namespace Service

variable {v w : Service} {happening : Happening} {effects : List Effect}

/-- The session goes along with a step: it meets what the step passes on, or it stays. -/
theorem session_step (step : v.Step happening effects w) :
    (happening.received? = none ∧ Passes v.host.session effects w.host.session) ∨
      ∃ a result c, happening.received? = some a ∧ a ∈ v.awaited ∧ startedBy effects = [] ∧
        w.host.session = (Episode.mk v.host.session (.completion a result c)).next := by
  cases step with
  | byte reads => exact .inl ⟨rfl, passes_readByte _ _ _⟩
  | inputEnds reads => exact .inl ⟨rfl, passes_inputOver _ _⟩
  | finishes => exact .inl ⟨rfl, .inl ⟨rfl, rfl⟩⟩
  | @receives h working finished a result c goesOn =>
    exact .inr ⟨a, result, c, rfl, by simp [awaited], startedBy_completed h a result c, rfl⟩

theorem awaited_step (step : v.Step happening effects w) :
    (startedBy effects : Multiset Analysis) + v.awaited =
      (happening.received?.toList : Multiset Analysis) + w.awaited := by
  cases step with
  | byte reads | inputEnds reads => simp [awaited, Happening.received?, add_assoc]
  | finishes => simp [awaited, Happening.received?, startedBy]
  | receives goesOn => simp [awaited, Happening.received?, startedBy_completed]

end Service

section
variable {start : Session} {first v w : Service} {history : List Stage}

/-! Conservation -/

theorem started_cons (stage : Stage) :
    started (stage :: history) = startedBy stage.effects ++ started history :=
  rfl

theorem received_cons (stage : Stage) :
    received (stage :: history) = stage.happening.received?.toList ++ received history := by
  cases same : stage.happening.received? <;> simp [received, same]

theorem started_eq_add (serving : Serving (.new start) history v) :
    (started history : Multiset Analysis) = received history + v.awaited := by
  induction serving with
  | start => rfl
  | @next history v w happening effects serving step ih =>
    rw [started_cons, received_cons, ← Multiset.coe_add, ← Multiset.coe_add, ih, add_left_comm,
      Service.awaited_step step, add_left_comm, add_assoc]

/-! The run of the session -/

/-- The session makes a run of its own, in which it hands out what is started and meets the end of
what is received. -/
theorem run_of_serving (serving : Serving (.new start) history v) :
    ∃ past, Run start past v.host.session ∧ handedOut past = started history ∧
      completed past = received history := by
  induction serving with
  | start => exact ⟨[], .start, rfl, rfl⟩
  | @next history v w happening effects serving step ih =>
    obtain ⟨past, run, handed, ended⟩ := ih
    rw [started_cons, received_cons]
    dsimp only
    rcases Service.session_step step with ⟨none, ⟨nothing, same⟩ | ⟨r, c, starts, after⟩⟩ |
      ⟨a, result, c, receives, awaits, nothing, after⟩
    · exact ⟨past, by rwa [same], by rw [nothing, handed]; rfl, by rw [none, ended]; rfl⟩
    · refine ⟨⟨v.host.session, .request r c⟩ :: past, ?_, ?_, ?_⟩
      · rw [after]
        exact run.next trivial
      · rw [handedOut_cons, handed, starts]
      · rw [completed_cons_of_none rfl, none, ended]
        rfl
    · -- Only what was started can be received.
      have known : a ∈ handedOut past := by
        have all := started_eq_add serving
        rw [handed, ← Multiset.mem_coe, all]
        exact Multiset.mem_add.mpr (.inr awaits)
      refine ⟨⟨v.host.session, .completion a result c⟩ :: past, ?_, ?_, ?_⟩
      · rw [after]
        exact run.next known
      · rw [handedOut_cons_of_none (handedOut_of_completed rfl), handed, nothing]
        rfl
      · rw [completed_cons, ended, receives]
        rfl

/-! What is awaited -/

theorem awaited_eq_outstanding {past : List Episode} {s : Session} (tracked : Tracked past s)
    (handed : handedOut past = started history) (ended : completed past = received history)
    (all : (started history : Multiset Analysis) = received history + v.awaited) :
    v.awaited = outstanding past := by
  -- No number is given twice, so that nothing is both received and awaited.
  have distinct : (received history + v.awaited : Multiset Analysis).Nodup := by
    rw [← all, Multiset.coe_nodup, ← handed]
    exact tracked.distinct.of_map _
  obtain ⟨_, _, apart⟩ := Multiset.nodup_add.mp distinct
  rw [outstanding, handed, ended, ← Multiset.filter_coe, all, Multiset.filter_add]
  have none : (received history : Multiset Analysis).filter (· ∉ received history) = 0 :=
    Multiset.filter_eq_nil.mpr fun a member => not_not.mpr (Multiset.mem_coe.mp member)
  have every : v.awaited.filter (· ∉ received history) = v.awaited :=
    Multiset.filter_eq_self.mpr fun a member before =>
      Multiset.disjoint_left.mp apart (Multiset.mem_coe.mpr before) member
  rw [none, every, zero_add]

structure Awaits (history : List Stage) (v : Service) : Prop where
  distinct : ((started history).map Analysis.id).Nodup
  slot : v.awaited.map Analysis.id = (v.host.session.running.map Running.id).toList

theorem awaits_of_serving (idle : start.running = none)
    (serving : Serving (.new start) history v) : Awaits history v := by
  obtain ⟨past, run, handed, ended⟩ := run_of_serving serving
  have tracked := tracked_of_run (tracked_of_idle idle) run
  have same := awaited_eq_outstanding tracked handed ended (started_eq_add serving)
  refine ⟨handed ▸ tracked.distinct, ?_⟩
  rw [same, Multiset.map_coe, tracked.slot]

/-! Input -/

theorem bytesRead_cons (stage : Stage) :
    bytesRead (stage :: history) = bytesRead history ++ stage.happening.byte?.toList := by
  cases same : stage.happening.byte? <;> simp [bytesRead, same]

/-- How the host stands after a history: it reads until the input is over, and holds the bytes that
have been read of the next line. -/
structure ReadsLines (history : List Stage) (h : Host) : Prop where
  reading : h.reading = false ↔ InputOver history
  line : h.reading = true → h.line = (cut [] (bytesRead history)).2.reverse

theorem ReadsLines.of_other {h g : Host} {stage : Stage} (reads : ReadsLines history h)
    (noByte : stage.happening.byte? = none)
    (reading : g.reading = (h.reading && !stage.happening.endsInput))
    (line : g.reading = true → g.line = h.line) : ReadsLines (stage :: history) g := by
  have bytes : bytesRead (stage :: history) = bytesRead history := by
    rw [bytesRead_cons, noByte, Option.toList_none, List.append_nil]
  constructor
  · rw [InputOver, bytes, List.exists_mem_cons_iff, or_assoc, ← InputOver, ← reads.reading, reading]
    cases h.reading <;> cases stage.happening.endsInput <;> simp
  · intro goesOn
    have before : h.reading = true := by
      rw [reading] at goesOn
      exact (Bool.and_eq_true_iff.mp goesOn).1
    rw [line goesOn, reads.line before, bytes]

theorem ReadsLines.of_byte {h : Host} (reads : ReadsLines history h) (goesOn : h.reading = true)
    (b : UInt8) (c : Circumstances) (v : Service) (effects : List Effect) :
    ReadsLines (⟨v, .byte b c, effects⟩ :: history) (h.readByte b c).2 := by
  have bytes : bytesRead (⟨v, .byte b c, effects⟩ :: history) = bytesRead history ++ [b] :=
    bytesRead_cons _
  have notOver : ¬InputOver history := fun isOver => by simp [reads.reading.mpr isOver] at goesOn
  obtain ⟨notEnded, noShutdown⟩ := not_or.mp notOver
  have asked : InputOver (⟨v, .byte b c, effects⟩ :: history) ↔
      ∃ line ∈ (cut (cut [] (bytesRead history)).2 [b]).1, asksShutdown line = true := by
    rw [InputOver, bytes, cut_append, List.exists_mem_cons_iff]
    have noEnd : Happening.endsInput (.byte b c) = false := rfl
    simp only [noEnd, Bool.false_eq_true, false_or, List.mem_append, or_and_right, exists_or,
      or_iff_right noShutdown, or_iff_right notEnded]
  have held := reads.line goesOn
  -- The byte completes the line that is held, or it is added to it.
  by_cases newline : b = 10
  · subst newline
    rw [Host.readByte_newline goesOn, held, List.reverse_reverse]
    constructor
    · rw [asked]
      simp [cut]
    · intro _
      rw [bytes, cut_append]
      simp [cut]
  · rw [Host.readByte_of_ne goesOn newline]
    constructor
    · rw [asked]
      simp [cut, newline, goesOn]
    · intro _
      rw [bytes, cut_append]
      simp [cut, newline, held]

theorem inputOver_reading (h : Host) (c : Circumstances) : (h.inputOver c).2.reading = false := by
  unfold Host.inputOver
  split <;> rfl

theorem reads_of_serving (serving : Serving (.new start) history v) :
    ReadsLines history v.host := by
  induction serving with
  | start => exact ⟨by simp [InputOver, bytesRead, cut, Service.new, Host.new], fun _ => rfl⟩
  | @next history v w happening effects serving step ih =>
    cases step with
    | byte goesOn => exact ih.of_byte goesOn _ _ _ _
    | inputEnds goesOn =>
      have closed := inputOver_reading ‹Host› ‹Circumstances›
      refine ih.of_other rfl ?_ (fun reads => ?_)
      · simp [closed, Happening.endsInput]
      · rw [closed] at reads
        cases reads
    | finishes => exact ih.of_other rfl (by simp [Happening.endsInput]) fun _ => rfl
    | receives => exact ih.of_other rfl (by simp [Happening.endsInput, Host.completed]) fun _ => rfl

/-! Waiting -/

theorem Serving.trans {later : List Stage} (serving : Serving first history v)
    (goesOn : Serving v later w) : Serving first (later ++ history) w := by
  induction goesOn with
  | start => exact serving
  | next _ step ih => exact ih.next step

theorem Serving.of_suffix {earlier : List Stage} {stage : Stage} (serving : Serving first history v)
    (within : stage :: earlier <:+ history) : Serving first earlier stage.service ∧
      ∃ w, stage.service.Step stage.happening stage.effects w := by
  induction serving with
  | start => exact absurd (List.suffix_nil.mp within) (List.cons_ne_nil stage earlier)
  | next serving step ih =>
    rcases List.suffix_cons_iff.mp within with same | before
    · obtain ⟨rfl, rfl⟩ := List.cons.inj same
      exact ⟨serving, _, step⟩
    · exact ih before

namespace Awaits

variable (awaits : Awaits history v)
include awaits

theorem eq_singleton {a : Analysis} (member : a ∈ v.awaited) :
    v.awaited = {a} ∧ v.host.session.running.map Running.id = some a.id := by
  have slot := awaits.slot
  cases running : v.host.session.running with
  | none =>
    rw [running] at slot
    have none : v.awaited = 0 := Multiset.map_eq_zero.mp slot
    rw [none] at member
    cases member
  | some r =>
    rw [running] at slot
    obtain ⟨b, only, same⟩ := Multiset.map_eq_singleton.mp slot
    rw [only, Multiset.mem_singleton] at member
    subst member
    exact ⟨only, congrArg some same.symm⟩

theorem idle_iff : v.host.session.isBusy = false ↔ v.awaited = 0 := by
  have slot := awaits.slot
  unfold Session.isBusy
  cases running : v.host.session.running with
  | none =>
    rw [running] at slot
    exact iff_of_true rfl (Multiset.map_eq_zero.mp slot)
  | some r =>
    rw [running] at slot
    refine iff_of_false Bool.noConfusion fun none => ?_
    simp [none] at slot

theorem busy_iff : v.host.session.isBusy = true ↔ ∃ a, v.awaited = {a} := by
  rw [← Bool.not_eq_false, awaits.idle_iff]
  constructor
  · intro some
    obtain ⟨a, member⟩ := Multiset.exists_mem_of_ne_zero some
    exact ⟨a, (awaits.eq_singleton member).1⟩
  · rintro ⟨a, only⟩ none
    rw [only] at none
    exact Multiset.singleton_ne_zero a none

end Awaits

/-- How much there is left to happen once the input is over: what works is to finish and then to be
received. -/
def Service.remaining (v : Service) : Nat :=
  2 * v.working.card + v.finished.card

theorem remaining_step {happening : Happening} {effects : List Effect}
    (step : v.Step happening effects w) (closed : v.host.reading = false) :
    w.host.reading = false ∧ w.remaining + 1 = v.remaining := by
  cases step with
  | byte reads | inputEnds reads => cases closed.symm.trans reads
  | finishes =>
    refine ⟨closed, ?_⟩
    simp only [Service.remaining, Multiset.card_cons]
    omega
  | receives goesOn =>
    refine ⟨closed, ?_⟩
    simp only [Service.remaining, Multiset.card_cons]
    omega

theorem remaining_serving {later : List Stage} (goesOn : Serving v later w)
    (closed : v.host.reading = false) :
    w.host.reading = false ∧ w.remaining + later.length = v.remaining := by
  induction goesOn with
  | start => exact ⟨closed, rfl⟩
  | next _ step ih =>
    obtain ⟨closed, before⟩ := ih
    obtain ⟨closed, now⟩ := remaining_step step closed
    refine ⟨closed, ?_⟩
    rw [List.length_cons]
    omega

theorem Awaits.remaining_le (awaits : Awaits history v) : v.remaining ≤ 2 := by
  have slot := congrArg Multiset.card awaits.slot
  have atMostOne : (v.host.session.running.map Running.id).toList.length ≤ 1 := by
    cases v.host.session.running <;> simp
  rw [Multiset.card_map, Multiset.coe_card] at slot
  have total : v.awaited.card = v.working.card + v.finished.card := by simp [Service.awaited]
  unfold Service.remaining
  omega

theorem Awaits.comes (awaits : Awaits history v) (busy : v.host.session.isBusy = true) :
    ∃ a, v.awaited = {a} ∧ ((∀ result, ∃ w, v.Step (.finishes a result) [] w) ∨
      ∃ result, ∀ c, ∃ effects w, v.Step (.receives a result c) effects w) := by
  obtain ⟨a, only⟩ := awaits.busy_iff.mp busy
  refine ⟨a, only, ?_⟩
  have member : a ∈ v.awaited := by simp [only]
  obtain ⟨h, working, finished⟩ := v
  rcases Multiset.mem_add.mp member with works | ended
  · obtain ⟨others, rfl⟩ := Multiset.exists_cons_of_mem works
    exact .inl fun result => ⟨_, .finishes⟩
  · obtain ⟨⟨b, result⟩, among, rfl⟩ := Multiset.mem_map.mp ended
    obtain ⟨others, rfl⟩ := Multiset.exists_cons_of_mem among
    have goesOn : h.isOver = false := by
      rw [Host.isOver, show h.session.isBusy = true from busy, Bool.not_true, Bool.and_false]
    exact .inr ⟨result, fun c => ⟨_, _, .receives goesOn⟩⟩

end

/-- How a service attends to its analyses after a history. -/
structure Attends (history : List Stage) (v : Service) : Prop where
  busy : v.host.session.isBusy = true ↔ ∃ a, v.awaited = {a}
  idle : v.host.session.isBusy = false ↔ v.awaited = 0
  inFlight : ∀ a ∈ v.awaited, v.host.session.running.map Running.id = some a.id
  closes : v.host.isOver = true ↔ InputOver history ∧ v.awaited = 0
  distinct : ((started history).map Analysis.id).Nodup
  all : (started history : Multiset Analysis) = received history + v.awaited
  /-- When the host is over, what was started has been received, each analysis once. -/
  complete : v.host.isOver = true → (received history).Perm (started history)
  /-- What is received is what the session waits for then. -/
  effective : ∀ stage ∈ history, ∀ a, stage.happening.received? = some a →
    stage.service.host.session.running.map Running.id = some a.id
  /-- What a busy session waits for can finish, or has finished and can be received. -/
  comes : v.host.session.isBusy = true →
    ∃ a, v.awaited = {a} ∧ ((∀ result, ∃ w, v.Step (.finishes a result) [] w) ∨
      ∃ result, ∀ c, ∃ effects w, v.Step (.receives a result c) effects w)
  /-- Once the input is over, the host is over after two steps at most, and one is possible until
  then. -/
  ends : InputOver history → ∀ later w, Serving v later w →
    later.length ≤ 2 ∧ (w.host.isOver = true ∨ ∃ happening effects u, w.Step happening effects u)

theorem isOver_iff {h : Host} :
    h.isOver = true ↔ h.reading = false ∧ h.session.isBusy = false := by
  simp [Host.isOver]

/-- Whatever the input and the order in which things happen: a session is busy exactly while one
analysis is started and not received, which is the one that it waits for. The host is over when its
input is and nothing is awaited, and then each analysis that was started has been received once. -/
theorem attends_of_serving {start : Session} {history : List Stage} {v : Service}
    (idle : start.running = none) (serving : Serving (.new start) history v) :
    Attends history v := by
  have awaits := awaits_of_serving idle serving
  have all := started_eq_add serving
  have closes : v.host.isOver = true ↔ InputOver history ∧ v.awaited = 0 := by
    rw [isOver_iff, (reads_of_serving serving).reading, awaits.idle_iff]
  constructor
  case busy => exact awaits.busy_iff
  case idle => exact awaits.idle_iff
  case inFlight => exact fun a member => (awaits.eq_singleton member).2
  case closes => exact closes
  case distinct => exact awaits.distinct
  case all => exact all
  case complete =>
    intro isOver
    rw [(closes.mp isOver).2, add_zero] at all
    exact (Multiset.coe_eq_coe.mp all).symm
  case effective =>
    intro stage member a receives
    obtain ⟨later, earlier, rfl⟩ := List.append_of_mem member
    obtain ⟨before, w, step⟩ := serving.of_suffix (List.suffix_append _ _)
    rcases Service.session_step step with ⟨none, _⟩ | ⟨b, result, c, receives', among, _⟩
    · cases none.symm.trans receives
    · cases receives'.symm.trans receives
      exact ((awaits_of_serving idle before).eq_singleton among).2
  case comes => exact awaits.comes
  case ends =>
    intro isOver later w goesOn
    have closed := (reads_of_serving serving).reading.mpr isOver
    obtain ⟨closed, total⟩ := remaining_serving goesOn closed
    refine ⟨by have := awaits.remaining_le; omega, ?_⟩
    cases busy : w.host.session.isBusy with
    | false => exact .inl (isOver_iff.mpr ⟨closed, busy⟩)
    | true =>
      obtain ⟨a, _, finishes | ⟨result, receives⟩⟩ :=
        (awaits_of_serving idle (serving.trans goesOn)).comes busy
      · obtain ⟨u, step⟩ := finishes (.error .busy)
        exact .inr ⟨_, _, u, step⟩
      · obtain ⟨effects, u, step⟩ := receives Sample.circumstances
        exact .inr ⟨_, effects, u, step⟩

theorem serving_readBytes (h : Host) (working : Multiset Analysis)
    (finished : Multiset (Analysis × Except Failure (List UInt8))) (c : Circumstances)
    (bytes : List UInt8) :
    ∃ later, Serving ⟨h, working, finished⟩ later ⟨(h.readBytes c bytes).2,
      startedBy (h.readBytes c bytes).1 + working, finished⟩ := by
  have nothing (working : Multiset Analysis) :
      (startedBy [] : Multiset Analysis) + working = working :=
    zero_add working
  induction bytes generalizing h working with
  | nil =>
    rw [Host.readBytes, nothing]
    exact ⟨[], .start⟩
  | cons b rest ih =>
    by_cases reads : h.reading = true
    · obtain ⟨later, goesOn⟩ := ih (h.readByte b c).2 (startedBy (h.readByte b c).1 + working)
      have works : (startedBy (h.readBytes c (b :: rest)).1 : Multiset Analysis) + working =
          startedBy ((h.readByte b c).2.readBytes c rest).1 +
            (startedBy (h.readByte b c).1 + working) := by
        rw [Host.readBytes, startedBy, List.filterMap_append, ← startedBy, ← startedBy,
          ← Multiset.coe_add, add_assoc, add_left_comm]
      rw [works]
      exact ⟨_, (Serving.start.next (.byte reads)).trans goesOn⟩
    · -- The host passes over what comes after a request to shut down.
      have same : h.readBytes c (b :: rest) = h.readBytes c rest := by
        rw [Host.readBytes, Host.readByte_of_closed reads]
        rfl
      rw [same]
      exact ih h working

namespace Sample

def opening : List UInt8 :=
  Text.Utf8.encode
    "\x7b\"command\": \"enable_for_project\", \"build_command\": \"make\"\x7d\n"

def disabling : List UInt8 :=
  Text.Utf8.encode "\x7b\"command\": \"re_execute\"\x7d\n\x7b\"command\": \"disable\"\x7d\n"

def crash : Except Failure (List UInt8) :=
  .error (.analysisFailed (.crashed "task 1 panicked"))

def opened : List Effect × Host :=
  (Host.new session).readBytes circumstances opening

def enabled : List Effect × Host :=
  opened.2.completed (projectAnalysis 1 (.enable .project)) (.ok [91, 93]) circumstances

def disabled : List Effect × Host :=
  enabled.2.readBytes circumstances disabling

def inputEnded : List Effect × Host :=
  disabled.2.inputOver circumstances

def closed : List Effect × Host :=
  inputEnded.2.completed (projectAnalysis 2 .reExecute) crash circumstances

end Sample

/-- An analysis is taken up; another one is started, the session is disabled and the input ends
before its task panics. -/
theorem attends_of_serving_crash :
    ∃ history v, Serving (.new Sample.session) history v ∧ Attends history v ∧
      v.host.isOver = true ∧ v.host.session.mode = .disabled ∧
      Sample.projectAnalysis 2 .reExecute ∈ received history := by
  have course : startedBy Sample.opened.1 = [Sample.projectAnalysis 1 (.enable .project)] ∧
      Sample.opened.2.isOver = false ∧
      startedBy Sample.disabled.1 = [Sample.projectAnalysis 2 .reExecute] ∧
      Sample.disabled.2.reading = true ∧ startedBy Sample.inputEnded.1 = [] ∧
      Sample.inputEnded.2.isOver = false ∧ Sample.closed.2.isOver = true ∧
      Sample.closed.2.session.mode = .disabled := by
    decide +kernel
  obtain ⟨first, goesOn, second, reads, nothing, waits, isOver, mode⟩ := course
  let a := Sample.projectAnalysis 1 (.enable .project)
  let b := Sample.projectAnalysis 2 .reExecute
  let c := Sample.circumstances
  obtain ⟨_, opens⟩ : ∃ later, Serving (.new Sample.session) later ⟨Sample.opened.2, {a}, 0⟩ := by
    have started := serving_readBytes (.new Sample.session) 0 0 c Sample.opening
    rwa [show startedBy ((Host.new Sample.session).readBytes c Sample.opening).1 = _ from first]
      at started
  have enables : Serving (.new Sample.session) _ ⟨Sample.enabled.2, 0, 0⟩ :=
    (opens.next (@Service.Step.finishes Sample.opened.2 0 0 a (.ok [91, 93]))).next
      (@Service.Step.receives Sample.opened.2 0 0 a (.ok [91, 93]) c goesOn)
  obtain ⟨_, disables⟩ : ∃ later, Serving ⟨Sample.enabled.2, 0, 0⟩ later
      ⟨Sample.disabled.2, {b}, 0⟩ := by
    have started := serving_readBytes Sample.enabled.2 0 0 c Sample.disabling
    rwa [show startedBy (Sample.enabled.2.readBytes c Sample.disabling).1 = _ from second]
      at started
  have ends : Sample.disabled.2.inputOver c = Sample.inputEnded := rfl
  have inputOver := (enables.trans disables).next (.inputEnds (c := c) reads)
  rw [ends, nothing] at inputOver
  have closes : Serving (.new Sample.session) _ ⟨Sample.closed.2, 0, 0⟩ :=
    (inputOver.next (@Service.Step.finishes Sample.inputEnded.2 0 0 b Sample.crash)).next
      (@Service.Step.receives Sample.inputEnded.2 0 0 b Sample.crash c waits)
  refine ⟨_, ⟨Sample.closed.2, 0, 0⟩, closes, attends_of_serving rfl closes, ?_, ?_, ?_⟩
  · dsimp only
    exact isOver
  · dsimp only
    exact mode
  · rw [received_cons]
    exact List.mem_cons_self

end CostWatch

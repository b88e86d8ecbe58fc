import CostWatch.Proofs.Session.Sending

/-!
What a session tells of its progress: that each analysis begins and ends, one after the other.

An analysis begins when it is handed out, by whatever request; it ends when it ends for the first
time, with costs, with a failure or with a result of no use. As there is never more than one, what
is told is known from the analyses that were handed out and from the one that is outstanding.
-/

set_option autoImplicit false

namespace CostWatch

namespace Event

def isProgress : Event → Bool
  | .progress _ _ => true
  | _ => false

theorem isProgress_of_isPlain (event : Event) (plain : event.isPlain = true) :
    event.isProgress = false := by
  cases event with
  | progress => cases plain
  | _ => rfl

end Event

namespace Analysis

def begins (a : Analysis) : Event := .progress true a.title

def ends (a : Analysis) : Event := .progress false a.title

end Analysis

/-- What is told of analyses that follow each other, the last of which may not have ended. -/
def brackets (ended : List Analysis) (current : Option Analysis) : List Event :=
  (ended.flatMap fun a => [a.begins, a.ends]) ++ current.toList.map Analysis.begins

section
variable {ended : List Analysis}

theorem brackets_begins (a : Analysis) :
    brackets ended none ++ [a.begins] = brackets ended (some a) := by
  simp [brackets]

theorem brackets_ends (a : Analysis) :
    brackets ended (some a) ++ [a.ends] = brackets (ended ++ [a]) none := by
  simp [brackets]

theorem getLast?_brackets {current : Option Analysis} :
    (∃ title, (brackets ended current).getLast? = some (.progress true title)) ↔
      current.isSome = true := by
  cases current with
  | some a => simp [brackets, Analysis.begins]
  | none =>
    rcases List.eq_nil_or_concat ended with rfl | ⟨before, last, rfl⟩ <;>
      simp [brackets, Analysis.ends]

end

section
variable {e : Episode} {history : List Episode} {start s : Session}

theorem sent_cons_isProgress (e : Episode) (history : List Episode) :
    (sent (e :: history)).filter Event.isProgress =
      (sent history).filter Event.isProgress ++ e.events.filter Event.isProgress :=
  List.filter_append _ _

theorem not_completed_of_handedOut (tracked : Tracked history e.session)
    (follows : e.occurrence.Follows history) {a : Analysis} (handsOut : e.handedOut = some a) :
    a ∉ completed history := by
  intro before
  have distinct := (tracked_next tracked follows).distinct
  rw [handedOut_cons, handsOut] at distinct
  exact (List.nodup_cons.mp distinct).1 (List.mem_map_of_mem (tracked.known a before))

/-- All analyses that were handed out have ended but the one that is outstanding, and this is what
was told. -/
def Told (history : List Episode) (ended : List Analysis) (current : Option Analysis) : Prop :=
  (handedOut history).reverse = ended ++ current.toList ∧
    outstanding history = current.toList ∧
    (sent history).filter Event.isProgress = brackets ended current

theorem told_next (tracked : Tracked history e.session) (follows : e.occurrence.Follows history)
    {ended : List Analysis} {current : Option Analysis} (told : Told history ended current) :
    ∃ ended current, Told (e :: history) ended current := by
  obtain ⟨handed, still, events⟩ := told
  -- Most episodes tell nothing of the progress, and what was outstanding is so afterwards.
  have same (nothing : e.handedOut = none)
      (outstanding : outstanding (e :: history) = current.toList)
      (silent : e.events.filter Event.isProgress = []) :
      ∃ ended current, Told (e :: history) ended current := by
    refine ⟨ended, current, ?_, outstanding, ?_⟩
    · rw [handedOut_cons_of_none nothing]
      exact handed
    · rw [sent_cons_isProgress, silent, List.append_nil]
      exact events
  cases sending e with
  | plain plain nothing late =>
    refine same nothing ?_ (filter_of_plain plain Event.isProgress_of_isPlain)
    cases ends : e.completed with
    | none => exact (outstanding_kept ends nothing).trans still
    | some a =>
      have known := known_of_follows follows ends
      exact (tracked.outstanding_late ends nothing known (late a ends)).trans still
  | begins a begins handsOut notEnded =>
    -- The session was idle, so all that was handed out before has ended.
    have none := tracked.outstanding_eq_nil (running_of_handedOut handsOut).1
    rw [none] at still
    cases current with
    | some b => cases still
    | none =>
      have new : a ∉ completed history := not_completed_of_handedOut tracked follows handsOut
      refine ⟨ended, some a, ?_, ?_, ?_⟩
      · rw [handedOut_cons, handsOut]
        simpa using handed
      · rw [outstanding_begun notEnded handsOut new, none]
        rfl
      · rw [sent_cons_isProgress, begins, events]
        exact brackets_begins a
  | ends a others begins plain nothing ends awaited =>
    have known := known_of_follows follows ends
    rw [tracked.outstanding_eq ((tracked.mem_outstanding_iff known).mpr awaited)] at still
    cases current with
    | none => cases still
    | some b =>
      cases still
      refine ⟨ended ++ [a], none, ?_, ?_, ?_⟩
      · rw [handedOut_cons_of_none nothing]
        simpa using handed
      · exact tracked.outstanding_ended_eq_nil ends nothing known awaited
      · rw [sent_cons_isProgress, begins, events]
        change _ ++ a.ends :: others.filter Event.isProgress = _
        rw [filter_of_plain plain Event.isProgress_of_isPlain]
        exact brackets_ends a
  | opens kind title html opens nothing notEnded =>
    exact same nothing ((outstanding_kept notEnded nothing).trans still) (by rw [opens]; rfl)
  | clears message clears nothing notEnded =>
    exact same nothing ((outstanding_kept notEnded nothing).trans still) (by rw [clears]; rfl)

theorem told_of_run (idle : start.running = none) (run : Run start history s) :
    ∃ ended current, Told history ended current := by
  induction run with
  | start => exact ⟨[], none, rfl, rfl, rfl⟩
  | @next history s o run follows ih =>
    obtain ⟨ended, current, told⟩ := ih
    exact told_next (e := ⟨s, o⟩) (tracked_of_run (tracked_of_idle idle) run) follows told

end

/-- In every run, what is told of the progress are the beginnings and the ends of the analyses that
were handed out, in their order: each ends, under the same title, before the next one begins. The
session is busy exactly if the last thing told is that an analysis begins. -/
theorem progress_bracketed {config : Config} {directory : String} {extract : Extractor}
    {ledger : Ledger} {cache output : Folder} {history : List Episode} {s : Session}
    (run : Run (.new config directory extract ledger cache output) history s) :
    ∃ (ended : List Analysis) (current : Option Analysis),
      (handedOut history).reverse = ended ++ current.toList ∧
      (sent history).filter Event.isProgress =
        (ended.flatMap fun a => [.progress true a.title, .progress false a.title]) ++
          current.toList.map (fun a => .progress true a.title) ∧
      (s.isBusy = true ↔ ∃ title,
        ((sent history).filter Event.isProgress).getLast? = some (.progress true title)) := by
  obtain ⟨ended, current, handed, still, told⟩ := told_of_run rfl run
  have tracked := tracked_of_run (tracked_new config directory extract ledger cache output) run
  refine ⟨ended, current, handed, told, ?_⟩
  -- The session waits for what is outstanding.
  have slot : current.toList.map Analysis.id = (s.running.map Running.id).toList :=
    still ▸ tracked.slot
  rw [told, getLast?_brackets, Session.isBusy]
  cases current <;> cases running : s.running <;> simp [running] at slot ⊢

theorem progress_bracketed_thrice :
    ∃ history s, Run Sample.session history s ∧ (completed history).length = 4 ∧
      s.isBusy = true ∧ ((sent history).filter Event.isProgress).length = 5 ∧
      ∃ (ended : List Analysis) (current : Option Analysis),
        (handedOut history).reverse = ended ++ current.toList ∧
        (sent history).filter Event.isProgress =
          (ended.flatMap fun a => [.progress true a.title, .progress false a.title]) ++
            current.toList.map (fun a => .progress true a.title) ∧
        (s.isBusy = true ↔ ∃ title,
          ((sent history).filter Event.isProgress).getLast? = some (.progress true title)) := by
  let first := Sample.analysis 1 (.enable .file)
  let second := Sample.analysis 2 .reExecute
  let occurrences := [Sample.completion first, Sample.request (.enableForProject "make"),
    Sample.completion second, Sample.request .disable, Sample.completion first,
    Sample.request .reExecute, Sample.completion first, Sample.request .enableForFile,
    Sample.request (.documentActivated Sample.document "class A \x7b")]
  have run := run_traced (show Feasible Sample.session occurrences by decide +kernel)
  exact ⟨_, _, run, by decide +kernel, by decide +kernel, by decide +kernel, progress_bracketed run⟩

end CostWatch

import CostWatch.Proofs.Session.Coherence
import CostWatch.Proofs.Session.Loading

/-!
How the mode of a session changes over its runs.

A mode is enabled by a request that finds costs in a cache, or long after the request, by the report
of the analysis that it started. An analysis that is not to be discarded ends in the mode in which
it was started, since what would change the mode meanwhile is refused, or has it discarded.
-/

set_option autoImplicit false

namespace CostWatch

namespace Session

/-- What enables a mode, with the costs of a cache or with those of a report. -/
inductive Enabling (s : Session) : Mode → Occurrence → Prop where
  | fileCache {d : Document} {documents : List CachedDocument} {c : Circumstances} :
      s.running = none → s.activeJava = .ok d →
      Cache.load? s.cache (Cache.fileName d.stem) = some documents → covers documents d = true →
      Enabling s .file (.request .enableForFile c)
  | projectCache {command : String} {words : List String} {documents : List CachedDocument}
      {c : Circumstances} :
      s.running = none → buildWords command = .ok words →
      Cache.load? s.cache Cache.projectName = some documents →
      Enabling s .project (.request (.enableForProject command) c)
  | report {a : Analysis} {mode : Mode} {report : List UInt8} {records : List Record}
      {ids : List MethodId} {ledger : Ledger} {c : Circumstances} :
      a.purpose = .enable mode → s.running = some ⟨a.id, false⟩ →
      readReport (s.reportedDocument a) report = .ok records →
      s.ledger.record records c.now c.ledgerWrite = .ok (ids, ledger) →
      Enabling s mode (.completion a (.ok report) c)

section
variable {s : Session} {a : Analysis} {mode : Mode}

theorem loads?_file {d : Document} {documents : List CachedDocument} (other : s.mode ≠ .file)
    (idle : s.running = none) (java : s.activeJava = .ok d)
    (loaded : Cache.load? s.cache (Cache.fileName d.stem) = some documents)
    (covered : covers documents d = true) : (s.loads? .enableForFile).isSome = true := by
  have found : (documents.find? (·.document = d)).isSome = true :=
    List.find?_isSome.mpr (by simpa [covers] using covered)
  simp [loads?, Mode.checkEnable, ensureIdle, isBusy, other, idle, java, loaded, Except.toOption,
    found]

theorem loads?_project {command : String} {words : List String} {documents : List CachedDocument}
    (other : s.mode ≠ .project) (idle : s.running = none) (split : buildWords command = .ok words)
    (loaded : Cache.load? s.cache Cache.projectName = some documents) :
    s.loads? (.enableForProject command) = some documents := by
  simp [loads?, Mode.checkEnable, ensureIdle, isBusy, other, idle, split, loaded, Except.toOption]

theorem enabling_of_step {o : Occurrence} {answer : Except Failure Outcome} {s' : Session}
    (step : s.Step o answer s') (other : s.mode ≠ s'.mode) (enabled : s'.mode ≠ .disabled) :
    s.Enabling s'.mode o := by
  cases step with
  | loadedFile idle loads =>
    obtain ⟨d, all, entry, java, loaded, member, same, _⟩ := loads?_enableForFile loads
    exact .fileCache idle java loaded (List.any_eq_true.mpr ⟨entry, member, decide_eq_true same⟩)
  | loadedProject idle words loads =>
    exact .projectCache idle words (loads?_enableForProject loads)
  | disabled => exact absurd rfl enabled
  | @takenUp a result c records ids ledger message running taken recorded =>
    obtain ⟨_, report, _, _, rfl, read, _⟩ := takesUp?_eq_some_iff.mp taken
    -- Costs change the mode only if that was what the analysis was started for.
    change s.mode ≠ s.modeAfter a at other
    change s.Enabling (s.modeAfter a) _
    cases purpose : a.purpose with
    | enable mode =>
      have after : s.modeAfter a = mode := by rw [modeAfter, purpose]
      rw [after]
      exact .report purpose running read recorded
    | reExecute | fileInProject => exact absurd (by rw [modeAfter, purpose]) other
  | _ => exact absurd rfl other

theorem mode_of_loads {r : Request} {documents : List CachedDocument}
    (loads : s.loads? r = some documents) (c : Circumstances) :
    (s.handle r c).2.mode = match r with
      | .enableForFile => .file
      | _ => .project := by
  obtain ⟨build, message, after, _⟩ := handle_eq_of_loads loads c
  rw [after]
  cases r <;> rfl

theorem mode_of_enabling {o : Occurrence} (enabling : s.Enabling mode o) (other : s.mode ≠ mode) :
    (s.meet o).2.mode = mode := by
  cases enabling with
  | @fileCache d documents c idle java loaded covered =>
    obtain ⟨found, loads⟩ :=
      Option.isSome_iff_exists.mp (loads?_file other idle java loaded covered)
    exact mode_of_loads loads c
  | @projectCache command words documents c idle split loaded =>
    exact mode_of_loads (loads?_project other idle split loaded) c
  | @report a mode report records ids ledger c purpose running read recorded =>
    have taken : s.takesUp? a (.ok report) c = some records :=
      takesUp?_eq_some_iff.mpr ⟨running, report, ids, ledger, rfl, read, recorded⟩
    obtain ⟨next, after⟩ := complete_of_taken taken
    change (s.complete a (.ok report) c).2.mode = mode
    rw [after]
    change s.modeAfter a = mode
    rw [modeAfter, purpose]

theorem Starts.mode_of_purpose {r : Request} {purpose : Purpose} {document : Option Document}
    {job : Job} (starts : s.Starts r purpose document job) :
    (purpose = .reExecute → s.mode ≠ .disabled) ∧
      (purpose = .fileInProject → s.mode = .project) := by
  cases starts with
  | file | project => exact ⟨nofun, nofun⟩
  | fileAgain inMode | projectAgain inMode =>
    refine ⟨fun _ disabled => ?_, nofun⟩
    cases inMode.symm.trans disabled
  | fileInProject inMode => exact ⟨nofun, fun _ => inMode⟩

end
end Session

section
variable {history : List Episode} {start s : Session} {e : Episode}

/-- What a session waits for and will not discard was started in the mode that it still has. -/
def InMode (history : List Episode) (s : Session) : Prop :=
  ∀ a ∈ handedOut history, s.running = some ⟨a.id, false⟩ →
    ∃ f ∈ history, f.handedOut = some a ∧ f.session.mode = s.mode

theorem inMode_next (tracked : Tracked (e :: history) e.next) (coherent : e.session.Coherent)
    (inMode : InMode history e.session) : InMode (e :: history) e.next := by
  intro a member waits
  rcases awaited_cases tracked coherent member waits with
    ⟨handed, _⟩ | ⟨handed, waited, mode, _⟩
  · obtain ⟨_, _, _, _, kept, _⟩ := starts_of_handedOut handed
    exact ⟨e, List.mem_cons_self, handed, kept.symm⟩
  · obtain ⟨f, earlier, started, same⟩ := inMode a handed waited
    exact ⟨f, List.mem_cons_of_mem e earlier, started, same.trans mode.symm⟩

theorem inMode_of_run (fresh : Tracked [] start) (coherent : start.Coherent)
    (run : Run start history s) : InMode history s := by
  induction run with
  | start => exact fun a member => absurd member List.not_mem_nil
  | @next history s o run follows ih =>
    have tracked : Tracked (⟨s, o⟩ :: history) (Episode.mk s o).next :=
      tracked_of_run fresh (run.next follows)
    exact inMode_next tracked (coherent_ready fresh coherent run).1 ih

theorem disables_of_step {o : Occurrence} {answer : Except Failure Outcome} {s' : Session}
    (step : s.Step o answer s')
    (ready : ∀ a result c, o = .completion a result c → s.running = some ⟨a.id, false⟩ →
      s.LeavesEnabled a)
    (enabled : s.mode ≠ .disabled) (now : s'.mode = .disabled) :
    ∃ c outcome, o = .request .disable c ∧ answer = .ok outcome := by
  cases step with
  | disabled => exact ⟨_, _, rfl, rfl⟩
  | loadedFile | loadedProject => cases now
  | takenUp running taken recorded => exact absurd now (ready _ _ _ rfl running).1
  | _ => exact absurd now enabled

theorem mode_of_disables (disables : e.disables = true) : e.next.mode = .disabled := by
  obtain ⟨c, outcome, asked, answered⟩ := disables_iff.mp disables
  have step := e.step
  rw [asked] at step
  generalize e.answer = answer at step answered
  generalize e.next = next at step ⊢
  cases step with
  | disabled _ => rfl
  | refused _ _ => cases answered
  | started _ _ starts => exact absurd rfl starts.ne_disable
  | exempted exempt _ => cases exempt
  | opened opens _ => cases opens

structure ModeDiscipline (history : List Episode) : Prop where
  enabled : ∀ e ∈ history, ∀ mode, mode ≠ .disabled → e.session.mode ≠ mode →
    (e.next.mode = mode ↔ e.session.Enabling mode e.occurrence)
  disabled : ∀ e ∈ history, e.session.mode ≠ .disabled →
    (e.next.mode = .disabled ↔ e.disables = true)
  /-- Nothing is started while the session is disabled, apart from what enables a mode. -/
  silent : ∀ e ∈ history, e.session.mode = .disabled → e.handedOut ≠ none →
    ∃ c, e.occurrence = .request .enableForFile c ∨
      ∃ command, e.occurrence = .request (.enableForProject command) c
  /-- What ends and is not discarded was started in the mode in which it ends. -/
  kept : ∀ e earlier, e :: earlier <:+ history → ∀ a, e.completed = some a →
    e.session.running = some ⟨a.id, false⟩ →
    (∃ f ∈ earlier, f.handedOut = some a ∧ f.session.mode = e.session.mode) ∧
      (a.purpose = .reExecute → e.session.mode ≠ .disabled) ∧
      (a.purpose = .fileInProject → e.session.mode = .project)

end

/-- In every run, a mode is enabled exactly by a cache with costs of what is asked for, or by the
recorded report of the analysis that was started for it; only the request to disable does disable;
and what ends without being discarded ends in the mode in which it was started. -/
theorem mode_discipline {config : Config} {directory : String} {extract : Extractor}
    {ledger : Ledger} {cache output : Folder} {history : List Episode} {s : Session}
    (run : Run (.new config directory extract ledger cache output) history s) :
    ModeDiscipline history := by
  have fresh := tracked_new config directory extract ledger cache output
  have coherent := Session.coherent_new config directory extract ledger cache output
  have split {e : Episode} (member : e ∈ history) :
      ∃ earlier, e :: earlier <:+ history := by
    obtain ⟨later, earlier, rfl⟩ := List.append_of_mem member
    exact ⟨earlier, List.suffix_append _ _⟩
  constructor
  case enabled =>
    intro e member mode shows other
    constructor
    · intro now
      subst now
      exact Session.enabling_of_step (e.session.step_meet e.occurrence) other shows
    · intro enabling
      exact Session.mode_of_enabling enabling other
  case disabled =>
    intro e member shows
    constructor
    · intro now
      obtain ⟨earlier, within⟩ := split member
      obtain ⟨before, follows⟩ := run.of_suffix within
      have ready := (coherent_ready fresh coherent before).2
      refine disables_iff.mpr (disables_of_step (e.session.step_meet e.occurrence) ?_ shows now)
      intro a result c ended running
      exact ready a (known_of_follows follows (by rw [Episode.completed, ended])) running
    · exact mode_of_disables
  case silent =>
    intro e member disabled handsOut
    obtain ⟨a, handed⟩ := Option.ne_none_iff_exists'.mp handsOut
    obtain ⟨t, r, _, mode, _, starts, asked⟩ := starts_of_handedOut handed
    have silent : t.mode = .disabled := mode.trans disabled
    obtain ⟨id, purpose, document, job⟩ := a
    -- An analysis is repeated, also after a save, only in a mode that shows costs.
    cases starts with
    | file =>
      rcases asked with again | ⟨c, asked⟩
      · cases again
      · exact ⟨c, .inl asked⟩
    | project =>
      rcases asked with again | ⟨c, asked⟩
      · cases again
      · exact ⟨c, .inr ⟨_, asked⟩⟩
    | fileAgain inMode | projectAgain inMode | fileInProject inMode =>
      cases silent.symm.trans inMode
  case kept =>
    intro e earlier within a ended running
    obtain ⟨before, follows⟩ := run.of_suffix within
    have known := known_of_follows follows ended
    obtain ⟨f, member, handed, same⟩ := inMode_of_run fresh coherent before a known running
    obtain ⟨t, r, _, mode, _, starts, _⟩ := starts_of_handedOut handed
    obtain ⟨again, inProject⟩ := starts.mode_of_purpose
    rw [mode, same] at again inProject
    exact ⟨⟨f, member, handed, same⟩, again, inProject⟩

theorem mode_discipline_project :
    ∃ history s, Run Sample.session history s ∧ ModeDiscipline history ∧
      history.map (·.next.mode) =
        [.disabled, .disabled, .project, .project, .project, .project, .disabled, .disabled] := by
  let first := Sample.projectAnalysis 1 (.enable .project)
  let second := Sample.analysis 2 .fileInProject
  let third := Sample.analysis 3 .fileInProject
  let occurrences := [Sample.completion third, Sample.request .disable,
    Sample.request .reExecuteFileInProject, Sample.completion second,
    Sample.request .reExecuteFileInProject, Sample.completion first,
    Sample.request (.enableForProject "make"),
    Sample.request (.documentActivated Sample.document "class A \x7b")]
  have run := run_traced (show Feasible Sample.session occurrences by decide +kernel)
  exact ⟨_, _, run, mode_discipline run, by decide +kernel⟩

end CostWatch

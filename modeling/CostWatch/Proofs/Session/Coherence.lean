import CostWatch.Proofs.Session.Flight

/-!
What always fits together in a session: its mode, the costs on display, the baselines and the build
command.

An analysis that ends could enable a mode after the session was disabled, or a project without its
command. That it does not is an invariant of its own: whatever the session waits for and will not
discard leaves a mode that shows costs.
-/

set_option autoImplicit false

namespace CostWatch

theorem Baselines.contains_putIfAbsent (b : Baselines) (d : Document) (text : String) :
    (b.putIfAbsent d text).contains d = true := by
  unfold putIfAbsent
  split
  · assumption
  · simp [Table.contains]

namespace Session

structure Coherent (s : Session) : Prop where
  silent : s.mode = .disabled →
    s.store.shown = none ∧ s.baselines = .empty ∧ s.stale = [] ∧ s.panels = []
  displays : s.mode ≠ .disabled → s.store.shown = s.active.bind fun a => s.store.get? a.document
  builds : s.mode = .project → s.buildCommand.isSome = true
  compares : s.mode ≠ .disabled → ∀ a, s.active = some a → s.baselines.contains a.document = true

/-- The mode that an analysis would leave shows costs, and a project has its build command. -/
def LeavesEnabled (s : Session) (a : Analysis) : Prop :=
  s.modeAfter a ≠ .disabled ∧ (s.modeAfter a = .project → (s.buildAfter a).isSome = true)

section
variable {s : Session} {a : Analysis}

theorem contains_refreshed (baselines : Baselines) (d : Document) (text : String) :
    (refreshed baselines (some ⟨d, text⟩)).contains d = true := by
  rw [Table.contains, find?_refreshed]
  simp

theorem Coherent.of_display {store : Store} {baselines : Baselines} (enabled : s.mode ≠ .disabled)
    (builds : s.mode = .project → s.buildCommand.isSome = true)
    (display : s.store = displaying store s.active)
    (refresh : s.baselines = refreshed baselines s.active) : s.Coherent where
  silent disabled := absurd disabled enabled
  displays _ := by
    rw [display]
    rfl
  builds := builds
  compares _ a active := by
    rw [refresh, active]
    exact contains_refreshed baselines a.document a.text

theorem coherent_silenced (s : Session) : s.silenced.Coherent where
  silent _ := ⟨rfl, rfl, rfl, rfl⟩
  displays enabled := absurd rfl enabled
  builds project := Mode.noConfusion project
  compares enabled := absurd rfl enabled

theorem coherent_activated (coherent : s.Coherent) (d : Document) (text : String) :
    (s.activated d text).Coherent := by
  by_cases disabled : s.mode = .disabled
  · have silent : s.mode.isEnabled = false := by rw [disabled]; rfl
    refine ⟨fun _ => ?_, fun enabled => absurd disabled enabled, coherent.builds,
      fun enabled => absurd disabled enabled⟩
    simp only [activated, silent, Bool.false_eq_true, if_false]
    exact coherent.silent disabled
  · have enabled := Mode.isEnabled_iff.mpr disabled
    refine ⟨fun same => absurd same disabled, fun _ => ?_, coherent.builds, fun _ a active => ?_⟩
    · simp only [activated, enabled, if_true]
      rfl
    · cases active
      simp only [activated, enabled, if_true]
      exact Baselines.contains_putIfAbsent s.baselines d text

theorem coherent_edited (coherent : s.Coherent) (d : Document) (text : String) :
    (s.edited d text).Coherent := by
  have document (a : ActiveDocument) :
      (if a.document = d then ⟨d, text⟩ else a : ActiveDocument).document = a.document := by
    split
    · next same => exact same.symm
    · rfl
  refine ⟨coherent.silent, fun enabled => ?_, coherent.builds, fun enabled a active => ?_⟩
  · have displays := coherent.displays enabled
    simp only [edited, displays, Option.bind_map, Function.comp_def, document]
  · obtain ⟨b, before, rfl⟩ := Option.map_eq_some_iff.mp active
    rw [document]
    exact coherent.compares enabled b before

theorem coherent_compared (coherent : s.Coherent) (d : Document) (text : String) :
    (s.compared d text).Coherent := by
  refine ⟨fun disabled => ?_, coherent.displays, coherent.builds, fun enabled a active => ?_⟩
  · have silent : s.mode.isEnabled = false := by rw [show s.mode = .disabled from disabled]; rfl
    simp only [compared, savesSignificantly, silent, Bool.false_and, Bool.false_eq_true, if_false]
    exact coherent.silent disabled
  · have before := coherent.compares enabled a active
    have shows : s.mode.isEnabled = true := Mode.isEnabled_iff.mpr enabled
    simp only [compared, shows, if_true]
    rw [Table.contains, Table.find?_put]
    split
    · rfl
    · exact before

theorem coherent_saved (coherent : s.Coherent) (d : Document) (text : String) :
    (s.saved d text).Coherent :=
  coherent_compared (coherent_edited coherent d text) d text

theorem Coherent.start (coherent : s.Coherent) (purpose : Purpose) (document : Option Document)
    (job : Job) : (s.start purpose document job).2.Coherent :=
  ⟨coherent.silent, coherent.displays, coherent.builds, coherent.compares⟩

/-- A step keeps a session coherent if what is taken up leaves a mode that shows costs. -/
theorem coherent_step {o : Occurrence} {answer : Except Failure Outcome} {s' : Session}
    (step : s.Step o answer s') (coherent : s.Coherent)
    (ready : ∀ a result c, o = .completion a result c → s.running = some ⟨a.id, false⟩ →
      s.LeavesEnabled a) : s'.Coherent := by
  have same : s.Coherent := coherent
  obtain ⟨silent, displays, builds, compares⟩ := coherent
  cases step with
  | refused => exact same
  | loadedFile idle loads =>
    exact .of_display Mode.noConfusion Mode.noConfusion rfl rfl
  | loadedProject idle words loads => exact .of_display Mode.noConfusion (fun _ => rfl) rfl rfl
  | started idle notLoaded starts => exact same.start _ _ _
  | disabled enabled => exact s.coherent_silenced
  | cleanedInPart idle => exact ⟨silent, displays, builds, compares⟩
  | cleaned idle =>
    refine ⟨fun disabled => ?_, fun enabled => ?_, builds, compares⟩
    · obtain ⟨_, noBaselines, notStale, noPanels⟩ := silent disabled
      refine ⟨rfl, noBaselines, notStale, ?_⟩
      dsimp only
      rw [noPanels, ite_self]
    · exact (Option.bind_fun_none s.active).symm
  | exempted exempts => exact ⟨silent, displays, builds, compares⟩
  | opened opens enabled =>
    exact ⟨fun disabled => absurd disabled enabled, displays, builds, compares⟩
  | activated => exact coherent_activated same _ _
  | changed => exact coherent_edited same _ _
  | saved => exact coherent_saved same _ _
  | savedAndStarted idle starts => exact (coherent_saved same _ _).start _ _ _
  | shutDown => exact same
  | late other => exact same
  | discarded running => exact ⟨silent, displays, builds, compares⟩
  | failed running none => exact ⟨silent, displays, builds, compares⟩
  | takenUp running taken =>
    -- Here the mode may become any mode; what the session waits for says which ones it can be.
    obtain ⟨enabled, builds⟩ := ready _ _ _ rfl running
    exact .of_display enabled builds rfl rfl
  | folders => exact ⟨silent, displays, builds, compares⟩

theorem leavesEnabled_of_starts {r : Request} {purpose : Purpose} {document : Option Document}
    {job : Job} (coherent : s.Coherent) (starts : s.Starts r purpose document job) (id : Nat) :
    s.LeavesEnabled ⟨id, purpose, document, job⟩ := by
  cases starts with
  | file other java => exact ⟨Mode.noConfusion, Mode.noConfusion⟩
  | project other words => exact ⟨Mode.noConfusion, fun _ => rfl⟩
  | fileAgain file java =>
    refine ⟨fun disabled => ?_, fun project => ?_⟩
    · cases file.symm.trans disabled
    · cases file.symm.trans project
  | projectAgain project command =>
    refine ⟨fun disabled => ?_, fun _ => ?_⟩
    · cases project.symm.trans disabled
    · exact coherent.builds project
  | fileInProject project java =>
    refine ⟨fun disabled => ?_, fun _ => ?_⟩
    · cases project.symm.trans disabled
    · exact coherent.builds project

/-- After a step, the session waits for an analysis that leaves a mode that shows costs, or for what
it waited for before, in the same mode and with the same build command. -/
theorem waiting_step {o : Occurrence} {answer : Except Failure Outcome} {s' : Session}
    (step : s.Step o answer s') (coherent : s.Coherent) {id : Nat}
    (waits : s'.running = some ⟨id, false⟩) :
    (∃ outcome b, answer = .ok outcome ∧ outcome.analysis = some b ∧ b.id = id ∧
        s'.LeavesEnabled b) ∨
      (s.running = some ⟨id, false⟩ ∧ s'.mode = s.mode ∧ s'.buildCommand = s.buildCommand) := by
  cases step with
  | started idle notLoaded starts =>
    cases waits
    exact .inl ⟨_, _, rfl, rfl, rfl, leavesEnabled_of_starts coherent starts s.nextId⟩
  | savedAndStarted idle starts =>
    cases waits
    exact .inl ⟨_, _, rfl, rfl, rfl,
      leavesEnabled_of_starts (coherent_saved coherent _ _) starts s.nextId⟩
  | loadedFile idle loads => cases idle.symm.trans waits
  | loadedProject idle words loads => cases idle.symm.trans waits
  | disabled enabled =>
    obtain ⟨r, _, discarded⟩ := Option.map_eq_some_iff.mp waits
    cases discarded
  | discarded running => cases waits
  | failed running none => cases waits
  | takenUp running taken => cases waits
  | refused | cleanedInPart | cleaned | exempted | opened | activated | changed | saved | shutDown
  | late | folders => exact .inr ⟨waits, rfl, rfl⟩

end

end Session

section
variable {history : List Episode} {start s : Session} {e : Episode}

/-- What a session waits for and will not discard leaves a mode that shows costs. -/
def Ready (history : List Episode) (s : Session) : Prop :=
  ∀ a ∈ handedOut history, s.running = some ⟨a.id, false⟩ → s.LeavesEnabled a

theorem awaited_cases (tracked : Tracked (e :: history) e.next) (coherent : e.session.Coherent)
    {a : Analysis} (member : a ∈ handedOut (e :: history))
    (waits : e.next.running = some ⟨a.id, false⟩) :
    (e.handedOut = some a ∧ e.next.LeavesEnabled a) ∨
      (a ∈ handedOut history ∧ e.session.running = some ⟨a.id, false⟩ ∧
        e.next.mode = e.session.mode ∧ e.next.buildCommand = e.session.buildCommand) := by
  rcases Session.waiting_step (e.session.step_meet e.occurrence) coherent waits with
    ⟨outcome, b, answer, carried, sameId, enabled⟩ | ⟨waited, mode, build⟩
  · -- No other analysis has the number of the one that is handed out.
    have handed : e.handedOut = some b := (handedOut_of_answer answer).trans carried
    have listed : b ∈ handedOut (e :: history) := by simp [handedOut_cons, handed]
    cases tracked.eq_of_id listed member sameId
    exact .inl ⟨handed, enabled⟩
  · rw [handedOut_cons] at member
    rcases List.mem_append.mp member with now | before
    · obtain ⟨idle, _⟩ := running_of_handedOut (Option.mem_toList.mp now)
      cases idle.symm.trans waited
    · exact .inr ⟨before, waited, mode, build⟩

theorem ready_next (tracked : Tracked (e :: history) e.next) (coherent : e.session.Coherent)
    (ready : Ready history e.session) : Ready (e :: history) e.next := by
  intro a member waits
  rcases awaited_cases tracked coherent member waits with
    ⟨_, enabled⟩ | ⟨handed, waited, mode, build⟩
  · exact enabled
  · have enabled := ready a handed waited
    unfold Session.LeavesEnabled Session.modeAfter Session.buildAfter at enabled ⊢
    rw [mode, build]
    exact enabled

theorem coherent_next (follows : e.occurrence.Follows history) (coherent : e.session.Coherent)
    (ready : Ready history e.session) : e.next.Coherent := by
  refine Session.coherent_step (e.session.step_meet e.occurrence) coherent ?_
  intro a result c ended running
  exact ready a (known_of_follows follows (by rw [Episode.completed, ended])) running

theorem coherent_ready (fresh : Tracked [] start) (coherent : start.Coherent)
    (run : Run start history s) : s.Coherent ∧ Ready history s := by
  induction run with
  | start => exact ⟨coherent, fun a member => absurd member List.not_mem_nil⟩
  | @next history s o run follows ih =>
    obtain ⟨coherent, ready⟩ := ih
    have tracked : Tracked (⟨s, o⟩ :: history) (Episode.mk s o).next :=
      tracked_of_run fresh (run.next follows)
    exact ⟨coherent_next (e := ⟨s, o⟩) follows coherent ready, ready_next tracked coherent ready⟩

end

namespace Session

theorem coherent_new (config : Config) (directory : String) (extract : Extractor) (ledger : Ledger)
    (cache output : Folder) : (new config directory extract ledger cache output).Coherent where
  silent _ := ⟨rfl, rfl, rfl, rfl⟩
  displays enabled := absurd rfl enabled
  builds project := Mode.noConfusion project
  compares enabled := absurd rfl enabled

theorem reExecute_ne_noBuildCommand {s : Session}
    (builds : s.mode = .project → s.buildCommand.isSome = true) :
    s.reExecute.1 ≠ .error (.notApplicable .noBuildCommand) := by
  intro refused
  rcases failure_of_require refused with enabled | ⟨_, _, refused⟩
  · unfold Mode.requireEnabled at enabled
    split at enabled <;> cases enabled
  rcases failure_of_require refused with idle | ⟨_, _, refused⟩
  · unfold ensureIdle at idle
    split at idle <;> cases idle
  split at refused
  · next project =>
    obtain ⟨build, command⟩ := Option.isSome_iff_exists.mp (builds project)
    rw [command] at refused
    cases refused
  · rcases failure_of_require refused with java | ⟨_, _, refused⟩
    · unfold activeJava at java
      split at java
      · cases java
      · split at java <;> cases java
    · cases refused

end Session

theorem coherent_of_run {config : Config} {directory : String} {extract : Extractor}
    {ledger : Ledger} {cache output : Folder} {history : List Episode} {s : Session}
    (run : Run (.new config directory extract ledger cache output) history s) :
    s.Coherent ∧ Ready history s :=
  coherent_ready (tracked_new config directory extract ledger cache output)
    (Session.coherent_new config directory extract ledger cache output) run

/-- In every run, the session is coherent; so its analysis can always be repeated as far as the
build command is concerned. -/
theorem coherent_run {config : Config} {directory : String} {extract : Extractor} {ledger : Ledger}
    {cache output : Folder} {history : List Episode} {s : Session}
    (run : Run (.new config directory extract ledger cache output) history s) :
    s.Coherent ∧ ∀ c, (s.handle .reExecute c).1 ≠ .error (.notApplicable .noBuildCommand) := by
  obtain ⟨coherent, _⟩ := coherent_ready
    (tracked_new config directory extract ledger cache output)
    (Session.coherent_new config directory extract ledger cache output) run
  exact ⟨coherent, fun _ => Session.reExecute_ne_noBuildCommand coherent.builds⟩

theorem coherent_run_disabled :
    ∃ history s, Run Sample.session history s ∧ (handedOut history).length = 2 ∧
      s.mode = .disabled ∧ s.Coherent ∧
      ∀ c, (s.handle .reExecute c).1 ≠ .error (.notApplicable .noBuildCommand) := by
  let job : Job := ⟨.project ["make"], "/tmp/infer-out/project", "/work"⟩
  let occurrences := [Sample.completion ⟨2, .reExecute, none, job⟩, Sample.request .disable,
    Sample.request .reExecute, Sample.completion ⟨1, .enable .project, none, job⟩,
    Sample.request (.enableForProject "make"),
    Sample.request (.documentActivated Sample.document "class A \x7b")]
  have run := run_traced (show Feasible Sample.session occurrences by decide +kernel)
  exact ⟨_, _, run, by decide +kernel, by decide +kernel, coherent_run run⟩

end CostWatch

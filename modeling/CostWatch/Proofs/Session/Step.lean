import CostWatch.Proofs.Session.Effects
import CostWatch.Proofs.Session.Run
import Mathlib.Data.Option.Basic

/-!
The steps of a session: what an occurrence can do to it, case by case with the conditions of each
case. What holds of every step is shown by these cases, without another look at the operations.
-/

set_option autoImplicit false

namespace CostWatch.Session

/-! What brings new costs -/

/-- The documents whose costs a request takes from a cache, if it does. -/
def loads? (s : Session) : Request → Option (List CachedDocument)
  | .enableForFile => do
    (s.mode.checkEnable .file).toOption
    s.ensureIdle.toOption
    let d ← s.activeJava.toOption
    let documents ← Cache.load? s.cache (Cache.fileName d.stem)
    (documents.find? (·.document = d)).map fun entry => [entry]
  | .enableForProject command => do
    (s.mode.checkEnable .project).toOption
    let _ ← (buildWords command).toOption
    s.ensureIdle.toOption
    Cache.load? s.cache Cache.projectName
  | _ => none

/-- The records that are taken up when an analysis ends: those of a whole report that the ledger has
recorded, if the analysis is running and its result is still of use. -/
def takesUp? (s : Session) (a : Analysis) (result : Except Failure (List UInt8))
    (c : Circumstances) : Option (List Record) := do
  guard (s.running = some ⟨a.id, false⟩)
  let report ← result.toOption
  let records ← (readReport (s.reportedDocument a) report).toOption
  let _ ← (s.ledger.record records c.now c.ledgerWrite).toOption
  some records

theorem toOption_eq_some_iff {α ε : Type} {x : Except ε α} {a : α} :
    x.toOption = some a ↔ x = .ok a := by
  cases x <;> simp [Except.toOption]

theorem takesUp?_eq_some_iff {s : Session} {a : Analysis} {result : Except Failure (List UInt8)}
    {c : Circumstances} {records : List Record} :
    s.takesUp? a result c = some records ↔ s.running = some ⟨a.id, false⟩ ∧
      ∃ report ids ledger, result = .ok report ∧
        readReport (s.reportedDocument a) report = .ok records ∧
        s.ledger.record records c.now c.ledgerWrite = .ok (ids, ledger) := by
  simp only [takesUp?, Option.bind_eq_bind, Option.bind_eq_some_iff, Option.guard_eq_some',
    toOption_eq_some_iff, Option.some.injEq]
  constructor
  · rintro ⟨_, running, report, rfl, found, read, ⟨ids, ledger⟩, recorded, rfl⟩
    exact ⟨running, report, ids, ledger, rfl, read, recorded⟩
  · rintro ⟨running, report, ids, ledger, rfl, read, recorded⟩
    exact ⟨(), running, report, rfl, records, read, (ids, ledger), recorded, rfl⟩

/-! What is asked for -/

def exempts : Request → Bool
  | .whitelistAdd _ | .whitelistRemove _ => true
  | _ => false

/-- Whether a request tells of a document. Such a request is never refused. -/
def tells : Request → Bool
  | .documentActivated _ _ | .documentChanged _ _ | .documentSaved _ _ => true
  | _ => false

def opens? : Request → Option Panel
  | .openDetail _ => some .history
  | .openOverview _ => some .overview
  | _ => none

/-! What is started -/

inductive Starts (s : Session) : Request → Purpose → Option Document → Job → Prop where
  | file {d : Document} : s.mode ≠ .file → s.activeJava = .ok d →
      Starts s .enableForFile (.enable .file) (some d) (s.fileJob d)
  | project {command : String} {build : List String} : s.mode ≠ .project →
      buildWords command = .ok build →
      Starts s (.enableForProject command) (.enable .project) none (s.projectJob build)
  | fileAgain {d : Document} : s.mode = .file → s.activeJava = .ok d →
      Starts s .reExecute .reExecute (some d) (s.fileJob d)
  | projectAgain {build : List String} : s.mode = .project → s.buildCommand = some build →
      Starts s .reExecute .reExecute none (s.projectJob build)
  | fileInProject {d : Document} : s.mode = .project → s.activeJava = .ok d →
      Starts s .reExecuteFileInProject .fileInProject (some d) (s.fileJob d)

/-- The session that shows nothing any more and will discard what is running. -/
def silenced (s : Session) : Session :=
  { s with
    mode := .disabled
    running := s.running.map Running.discarded
    store := s.store.hide
    baselines := .empty
    stale := []
    panels := [] }

def activated (s : Session) (d : Document) (text : String) : Session :=
  { s with
    active := some ⟨d, text⟩
    baselines := if s.mode.isEnabled then Baselines.putIfAbsent s.baselines d text else s.baselines
    store := if s.mode.isEnabled then displaying s.store (some ⟨d, text⟩) else s.store }

/-- The steps of a session: an occurrence, the answer to it and the session afterwards. -/
inductive Step (s : Session) : Occurrence → Except Failure Outcome → Session → Prop where
  | refused {r : Request} {c : Circumstances} {f : Failure} : tells r = false → s.loads? r = none →
      Step s (.request r c) (.error f) s
  | loadedFile {documents : List CachedDocument} {c : Circumstances} {message : String} :
      s.running = none → s.loads? .enableForFile = some documents →
      Step s (.request .enableForFile c)
        (.ok (.ofEvents ((s.loaded .file documents).decorations ++ [.info message])))
        (s.loaded .file documents)
  | loadedProject {command : String} {build : List String} {documents : List CachedDocument}
      {c : Circumstances} {message : String} :
      s.running = none → buildWords command = .ok build →
      s.loads? (.enableForProject command) = some documents →
      Step s (.request (.enableForProject command) c)
        (.ok (.ofEvents (({ s with buildCommand := some build }.loaded .project
          documents).decorations ++ [.info message])))
        ({ s with buildCommand := some build }.loaded .project documents)
  | started {r : Request} {c : Circumstances} {purpose : Purpose} {document : Option Document}
      {job : Job} : s.running = none → s.loads? r = none → s.Starts r purpose document job →
      Step s (.request r c) (.ok (s.start purpose document job).1) (s.start purpose document job).2
  | disabled {c : Circumstances} : s.mode ≠ .disabled →
      Step s (.request .disable c) (.ok (.ofEvents [.cleared s.panels, .info "Costlens disabled"]))
        s.silenced
  | cleanedInPart {c : Circumstances} {fault : IoFault} : s.running = none →
      Step s (.request .cleanOutput c) (.error (.io fault)) { s with cache := .absent }
  | cleaned {c : Circumstances} {message : String} : s.running = none →
      Step s (.request .cleanOutput c)
        (.ok (.ofEvents ((if s.mode.isEnabled then [.cleared s.panels] else []) ++
          [.info message])))
        { s with
          cache := .absent
          output := .absent
          store := .empty
          panels := if s.mode.isEnabled then [] else s.panels }
  | exempted {r : Request} {c : Circumstances} {ledger : Ledger}
      {told : Except Failure String} : exempts r = true → ledger.book = s.ledger.book →
      Step s (.request r c) (told.map fun message => .ofEvents [.info message]) { s with ledger }
  | opened {r : Request} {c : Circumstances} {panel : Panel} {title html : String} :
      opens? r = some panel → s.mode ≠ .disabled →
      Step s (.request r c) (.ok (.ofEvents [.panel panel title html]))
        { s with panels := s.panelsWith panel }
  | activated {d : Document} {text : String} {c : Circumstances} :
      Step s (.request (.documentActivated d text) c)
        (.ok (.ofEvents (if s.mode.isEnabled then (s.activated d text).decorations else [])))
        (s.activated d text)
  | changed {d : Document} {text : String} {c : Circumstances} :
      Step s (.request (.documentChanged d text) c)
        (.ok (.ofEvents (if s.mode.isEnabled && s.isActive d then (s.edited d text).decorations
          else [])))
        (s.edited d text)
  | saved {d : Document} {text : String} {c : Circumstances} {change : Change} :
      Step s (.request (.documentSaved d text) c)
        (.ok (.ofEvents (if s.savesSignificantly d text then
          significantChange d change :: if s.isActive d then (s.saved d text).decorations else []
          else [])))
        (s.saved d text)
  | savedAndStarted {d : Document} {text : String} {c : Circumstances} {purpose : Purpose}
      {document : Option Document} {job : Job} :
      s.running = none → (s.saved d text).Starts .reExecute purpose document job →
      s.isActive d = true → s.savesSignificantly d text = true →
      Step s (.request (.documentSaved d text) c)
        (.ok ((s.saved d text).start purpose document job).1)
        ((s.saved d text).start purpose document job).2
  | shutDown {c : Circumstances} : Step s (.request .shutdown c) (.ok .nothing) s
  | late {a : Analysis} {result : Except Failure (List UInt8)} {c : Circumstances} :
      s.running.map Running.id ≠ some a.id →
      Step s (.completion a result c) (.ok .nothing) s
  | discarded {a : Analysis} {result : Except Failure (List UInt8)} {c : Circumstances}
      {message : String} : s.running = some ⟨a.id, true⟩ →
      Step s (.completion a result c) (.ok (.ofEvents [.progress false a.title, .info message]))
        { s with running := none }
  | failed {a : Analysis} {result : Except Failure (List UInt8)} {c : Circumstances} {f : Failure} :
      s.running = some ⟨a.id, false⟩ → s.takesUp? a result c = none →
      Step s (.completion a result c) (.ok (.ofEvents [.progress false a.title, .ofFailure f]))
        { s with running := none }
  | takenUp {a : Analysis} {result : Except Failure (List UInt8)} {c : Circumstances}
      {records : List Record} {ids : List MethodId} {ledger : Ledger} {message : String} :
      s.running = some ⟨a.id, false⟩ → s.takesUp? a result c = some records →
      s.ledger.record records c.now c.ledgerWrite = .ok (ids, ledger) →
      Step s (.completion a result c)
        (.ok (.ofEvents (.progress false a.title ::
          ((s.settled a records ledger).decorations ++ [.info message]))))
        (s.settled a records ledger)
  | folders {cache output : Folder} : Step s (.folders cache output) (.ok .nothing)
      { s with cache, output }

/-! Every operation makes such a step -/

theorem require_ok {α : Type} {s : Session} {condition : Except Failure α} {next : α → Answer}
    {a : α} (met : condition = .ok a) : s.require condition next = next a := by
  subst met
  rfl

theorem require_error {α : Type} {s : Session} {condition : Except Failure α} {next : α → Answer}
    {f : Failure} (unmet : condition = .error f) : s.require condition next = s.refuse f := by
  subst unmet
  rfl

theorem failure_of_require {α : Type} {s : Session} {condition : Except Failure α}
    {next : α → Answer} {f : Failure} (failed : (s.require condition next).1 = .error f) :
    condition = .error f ∨ ∃ a, condition = .ok a ∧ (next a).1 = .error f := by
  cases condition with
  | error g =>
    cases failed
    exact .inl rfl
  | ok a => exact .inr ⟨a, rfl, failed⟩

/-- A request that requires a condition is refused, or makes the step that comes next. -/
theorem step_require {α : Type} {s : Session} {r : Request} {c : Circumstances}
    {condition : Except Failure α} {next : α → Answer} (asks : tells r = false)
    (unmet : ∀ f, condition = .error f → s.loads? r = none)
    (goesOn : ∀ a, condition = .ok a → s.Step (.request r c) (next a).1 (next a).2) :
    s.Step (.request r c) (s.require condition next).1 (s.require condition next).2 := by
  cases met : condition with
  | error f => exact .refused asks (unmet f met)
  | ok a => exact goesOn a met

theorem running_of_ensureIdle {s : Session} {u : Unit} (idle : s.ensureIdle = .ok u) :
    s.running = none := by
  unfold ensureIdle isBusy at idle
  cases running : s.running with
  | none => rfl
  | some r => simp [running] at idle

theorem ne_of_checkEnable {mode requested : Mode} {u : Unit}
    (allowed : mode.checkEnable requested = .ok u) : mode ≠ requested := by
  intro same
  unfold Mode.checkEnable at allowed
  split at allowed <;> cases allowed

theorem ne_of_requireEnabled {mode : Mode} {u : Unit} (enabled : mode.requireEnabled = .ok u) :
    mode ≠ .disabled := by
  intro same
  rw [Mode.requireEnabled, if_pos same] at enabled
  cases enabled

theorem ne_of_checkDisable {mode : Mode} {u : Unit} (enabled : mode.checkDisable = .ok u) :
    mode ≠ .disabled := by
  intro same
  rw [Mode.checkDisable, if_pos same] at enabled
  cases enabled

theorem step_enableForFile (s : Session) (c : Circumstances) :
    s.Step (.request .enableForFile c) s.enableForFile.1 s.enableForFile.2 := by
  refine step_require rfl (fun f refused => by simp [loads?, refused, Except.toOption]) ?_
  intro _ allowed
  refine step_require rfl (fun f busy => by simp [loads?, allowed, busy, Except.toOption]) ?_
  intro _ idle
  refine step_require rfl
    (fun f other => by simp [loads?, allowed, idle, other, Except.toOption]) ?_
  intro d java
  have loads : s.loads? .enableForFile =
      ((Cache.load? s.cache (Cache.fileName d.stem)).bind fun documents =>
        documents.find? (·.document = d)).map fun entry => [entry] := by
    simp only [loads?, allowed, idle, java, Except.toOption, Option.bind_eq_bind, Option.bind_some,
      Option.map_bind]
    rfl
  dsimp only
  split
  · next entry found =>
    rw [found] at loads
    obtain ⟨message, same⟩ := s.enableFromCache_eq .file [entry]
    rw [same]
    exact .loadedFile (running_of_ensureIdle idle) loads
  · next missing =>
    rw [missing] at loads
    exact .started (running_of_ensureIdle idle) loads (.file (ne_of_checkEnable allowed) java)

theorem step_enableForProject (s : Session) (command : String) (c : Circumstances) :
    s.Step (.request (.enableForProject command) c) (s.enableForProject command).1
      (s.enableForProject command).2 := by
  refine step_require rfl (fun f refused => by simp [loads?, refused, Except.toOption]) ?_
  intro _ allowed
  refine step_require rfl (fun f fault => by simp [loads?, allowed, fault, Except.toOption]) ?_
  intro build words
  refine step_require rfl (fun f busy => by simp [loads?, allowed, words, busy, Except.toOption]) ?_
  intro _ idle
  have loads : s.loads? (.enableForProject command) = Cache.load? s.cache Cache.projectName := by
    simp only [loads?, allowed, words, idle, Except.toOption, Option.bind_eq_bind, Option.bind_some]
  dsimp only
  split
  · next documents found =>
    rw [found] at loads
    obtain ⟨message, same⟩ :=
      { s with buildCommand := some build }.enableFromCache_eq .project documents
    rw [same]
    exact .loadedProject (running_of_ensureIdle idle) words loads
  · next missing =>
    rw [missing] at loads
    exact .started (running_of_ensureIdle idle) loads (.project (ne_of_checkEnable allowed) words)

theorem reExecute_cases (s : Session) :
    (∃ f, s.reExecute = s.refuse f) ∨
      ∃ purpose document job, s.running = none ∧ s.Starts .reExecute purpose document job ∧
        s.reExecute = answer (s.start purpose document job) := by
  cases enabled : s.mode.requireEnabled with
  | error f => exact .inl ⟨f, require_error enabled⟩
  | ok u =>
    have first : s.reExecute = _ := require_ok enabled
    cases idle : s.ensureIdle with
    | error f => exact .inl ⟨f, first.trans (require_error idle)⟩
    | ok u =>
      have second := first.trans (require_ok idle)
      have running := running_of_ensureIdle idle
      split at second
      · next project =>
        split at second
        · exact .inl ⟨_, second⟩
        · next build command =>
          exact .inr ⟨_, _, _, running, .projectAgain project command, second⟩
      · next notProject =>
        -- A mode that shows costs and is not for the project is for the file.
        have file : s.mode = .file := by
          cases mode : s.mode with
          | disabled => exact absurd mode (ne_of_requireEnabled enabled)
          | file => rfl
          | project => exact absurd mode notProject
        cases java : s.activeJava with
        | error f => exact .inl ⟨f, second.trans (require_error java)⟩
        | ok d =>
          exact .inr ⟨_, _, _, running, .fileAgain file java, second.trans (require_ok java)⟩

theorem step_reExecute (s : Session) (c : Circumstances) :
    s.Step (.request .reExecute c) s.reExecute.1 s.reExecute.2 := by
  rcases s.reExecute_cases with ⟨f, same⟩ | ⟨purpose, document, job, running, starts, same⟩
  · rw [same]
    exact .refused rfl rfl
  · rw [same]
    exact .started running rfl starts

theorem step_reExecuteFileInProject (s : Session) (c : Circumstances) :
    s.Step (.request .reExecuteFileInProject c) s.reExecuteFileInProject.1
      s.reExecuteFileInProject.2 := by
  unfold reExecuteFileInProject
  split
  · next project =>
    refine step_require rfl (fun _ _ => rfl) fun _ idle => ?_
    refine step_require rfl (fun _ _ => rfl) fun d java => ?_
    exact .started (running_of_ensureIdle idle) rfl (.fileInProject project java)
  · exact .refused rfl rfl

theorem step_disable (s : Session) (c : Circumstances) :
    s.Step (.request .disable c) s.disable.1 s.disable.2 := by
  refine step_require rfl (fun _ _ => rfl) fun _ enabled => ?_
  exact .disabled (ne_of_checkDisable enabled)

theorem absent_of_remove {folder : Folder} {refusal : Option IoFault} {removed : Bool × Folder}
    (gone : (folder.remove refusal).mapError Failure.io = .ok removed) : removed.2 = .absent := by
  unfold Folder.remove at gone
  split at gone
  · cases gone
  · cases gone
    rfl

theorem io_of_mapError {α : Type} {x : Except IoFault α} {f : Failure}
    (failed : x.mapError Failure.io = .error f) : ∃ fault, f = .io fault := by
  cases x with
  | error fault =>
    cases failed
    exact ⟨fault, rfl⟩
  | ok a => cases failed

theorem step_cleanOutput (s : Session) (c : Circumstances) :
    s.Step (.request .cleanOutput c) (s.cleanOutput c).1 (s.cleanOutput c).2 := by
  refine step_require rfl (fun _ _ => rfl) fun _ idle => ?_
  have running := running_of_ensureIdle idle
  refine step_require rfl (fun _ _ => rfl) fun removed gone => ?_
  have noCache : removed.2 = .absent := absent_of_remove gone
  dsimp only
  rw [noCache]
  cases emptied : (s.output.remove c.outputRemoval).mapError Failure.io with
  | error fault =>
    obtain ⟨fault, rfl⟩ := io_of_mapError emptied
    exact .cleanedInPart running
  | ok removed =>
    have noOutput : removed.2 = .absent := absent_of_remove emptied
    -- The events depend on the mode, and the state does not.
    have cleaned (message : String) := @Step.cleaned s c message running
    dsimp only [require]
    rw [noOutput]
    split
    · next enabled =>
      simp only [if_pos enabled] at cleaned
      exact cleaned _
    · next disabled =>
      simp only [if_neg disabled] at cleaned
      exact cleaned _

theorem step_whitelistAdd (s : Session) (name : String) (c : Circumstances) :
    s.Step (.request (.whitelistAdd name) c) (s.whitelistAdd name c).1
      (s.whitelistAdd name c).2 := by
  unfold whitelistAdd
  split
  next added ledger found =>
  have kept : ledger.book = s.ledger.book := by
    rw [← s.ledger.book_addName name c.ledgerWrite, found]
  cases added with
  | error e => exact @Step.exempted s _ c ledger (.error (.ofLedger e)) rfl kept
  | ok added => exact @Step.exempted s _ c ledger (.ok _) rfl kept

theorem step_whitelistRemove (s : Session) (name : String) (c : Circumstances) :
    s.Step (.request (.whitelistRemove name) c) (s.whitelistRemove name c).1
      (s.whitelistRemove name c).2 := by
  unfold whitelistRemove
  split
  next removed ledger found =>
  have kept : ledger.book = s.ledger.book := by
    rw [← s.ledger.book_removeName name c.ledgerWrite, found]
  cases removed with
  | error e => exact @Step.exempted s _ c ledger (.error (.ofLedger e)) rfl kept
  | ok removed => exact @Step.exempted s _ c ledger (.ok _) rfl kept

theorem step_openDetail (s : Session) (id : MethodId) (c : Circumstances) :
    s.Step (.request (.openDetail id) c) (s.openDetail id).1 (s.openDetail id).2 := by
  refine step_require rfl (fun _ _ => rfl) fun _ enabled => ?_
  split
  · exact .refused rfl rfl
  · exact .opened rfl (ne_of_requireEnabled enabled)

theorem step_openOverview (s : Session) (selected : Option String) (c : Circumstances) :
    s.Step (.request (.openOverview selected) c) (s.openOverview selected).1
      (s.openOverview selected).2 := by
  refine step_require rfl (fun _ _ => rfl) fun _ enabled => ?_
  dsimp only
  split
  · exact .refused rfl rfl
  · exact .opened rfl (ne_of_requireEnabled enabled)

theorem documentActivated_eq (s : Session) (d : Document) (text : String) :
    s.documentActivated d text = (s.activated d text).tell
      (if s.mode.isEnabled then (s.activated d text).decorations else []) := by
  unfold documentActivated Session.activated
  dsimp only
  split
  · rw [selectCurrent_eq]
  · rfl

theorem documentChanged_eq (s : Session) (d : Document) (text : String) :
    s.documentChanged d text = (s.edited d text).tell
      (if s.mode.isEnabled && s.isActive d then (s.edited d text).decorations else []) := by
  unfold documentChanged
  rw [isActive_eq d text]
  cases found : s.withText? d text with
  | none => simp [edited_of_none found]
  | some t =>
    have mode : t.mode = s.mode := by
      rw [← edited_of_some found]
      rfl
    simp only [edited_of_some found, mode, Option.isSome_some, Bool.and_true]
    split <;> rfl

theorem followUp_cases (s : Session) (d : Document) (change : Change) (isActive : Bool) :
    s.followUp d change isActive =
        s.tell (significantChange d change :: if isActive then s.decorations else []) ∨
      ∃ purpose document job, s.running = none ∧ s.Starts .reExecute purpose document job ∧
        isActive = true ∧ s.followUp d change isActive = answer (s.start purpose document job) := by
  unfold followUp
  dsimp only
  split
  · next automatic =>
    have active : isActive = true := by simp_all
    rcases s.reExecute_cases with ⟨f, same⟩ | ⟨purpose, document, job, running, starts, same⟩
    · exact .inl (by rw [same]; rfl)
    · exact .inr ⟨purpose, document, job, running, starts, active, by rw [same]; rfl⟩
  · exact .inl rfl

/-- A saved text is compared, and nothing else happens or an analysis is started. -/
theorem compareSaved_cases (s : Session) (d : Document) (text : String) (isActive : Bool) :
    (∃ change, s.compareSaved d text isActive = (s.compared d text).tell
        (if s.savesSignificantly d text then
          significantChange d change :: if isActive then (s.compared d text).decorations else []
          else [])) ∨
      ∃ purpose document job, s.running = none ∧
        (s.compared d text).Starts .reExecute purpose document job ∧ isActive = true ∧
        s.savesSignificantly d text = true ∧ s.compareSaved d text isActive =
          answer ((s.compared d text).start purpose document job) := by
  unfold compareSaved compared savesSignificantly
  cases enabled : s.mode.isEnabled with
  | false => exact .inl ⟨.none, rfl⟩
  | true =>
    cases found : s.baselines.find? d with
    | none => exact .inl ⟨.none, rfl⟩
    | some baseline =>
      by_cases significant :
          (Change.check s.extract baseline text s.ledger.whitelist).isSignificant = true
      · simp only [significant, Bool.and_self, if_true]
        rcases followUp_cases _ d _ isActive with
          told | ⟨purpose, document, job, running, starts, active, started⟩
        · exact .inl ⟨_, told⟩
        · exact .inr ⟨purpose, document, job, running, starts, active, trivial, started⟩
      · exact .inl ⟨.none, by simp [significant]⟩

theorem documentSaved_eq (s : Session) (d : Document) (text : String) :
    s.documentSaved d text = (s.edited d text).compareSaved d text (s.isActive d) := by
  unfold documentSaved
  rw [isActive_eq d text]
  cases found : s.withText? d text with
  | none => rw [edited_of_none found, Option.isSome_none]
  | some t => rw [edited_of_some found, Option.isSome_some]

theorem step_documentSaved (s : Session) (d : Document) (text : String) (c : Circumstances) :
    s.Step (.request (.documentSaved d text) c) (s.documentSaved d text).1
      (s.documentSaved d text).2 := by
  rw [documentSaved_eq]
  rcases (s.edited d text).compareSaved_cases d text (s.isActive d) with
    ⟨change, same⟩ | ⟨purpose, document, job, running, starts, active, significant, same⟩
  · rw [same]
    exact .saved
  · rw [same]
    exact .savedAndStarted running starts active significant

theorem step_handle (s : Session) (r : Request) (c : Circumstances) :
    s.Step (.request r c) (s.handle r c).1 (s.handle r c).2 := by
  cases r with
  | enableForFile => exact s.step_enableForFile c
  | enableForProject command => exact s.step_enableForProject command c
  | reExecute => exact s.step_reExecute c
  | reExecuteFileInProject => exact s.step_reExecuteFileInProject c
  | disable => exact s.step_disable c
  | cleanOutput => exact s.step_cleanOutput c
  | whitelistAdd name => exact s.step_whitelistAdd name c
  | whitelistRemove name => exact s.step_whitelistRemove name c
  | openDetail id => exact s.step_openDetail id c
  | openOverview selected => exact s.step_openOverview selected c
  | documentActivated d text =>
    rw [handle, documentActivated_eq]
    exact .activated
  | documentChanged d text =>
    rw [handle, documentChanged_eq]
    exact .changed
  | documentSaved d text => exact s.step_documentSaved d text c
  | shutdown => exact step_require rfl (fun _ _ => rfl) fun _ _ => .shutDown

/-- The end of the running analysis, its result still of use: either nothing is taken up and only
the analysis is over, or the records are taken up. -/
theorem complete_cases {s : Session} {a : Analysis} (running : s.running = some ⟨a.id, false⟩)
    (result : Except Failure (List UInt8)) (c : Circumstances) :
    (s.takesUp? a result c = none ∧ ∃ f, s.complete a result c =
        (.ofEvents [.progress false a.title, .ofFailure f], { s with running := none })) ∨
      ∃ records ids ledger message, s.takesUp? a result c = some records ∧
        s.ledger.record records c.now c.ledgerWrite = .ok (ids, ledger) ∧ s.complete a result c =
          (.ofEvents (.progress false a.title ::
            ((s.settled a records ledger).decorations ++ [.info message])),
            s.settled a records ledger) := by
  have guarded : (guard (s.running = some ⟨a.id, false⟩) : Option Unit) = some () := by
    rw [running]
    exact if_pos rfl
  unfold complete takesUp?
  rw [guarded, running]
  simp only [if_true, Option.bind_eq_bind, Option.bind_some]
  cases result with
  | error f => exact .inl ⟨rfl, f, rfl⟩
  | ok report =>
    have same : { s with running := none }.reportedDocument a = s.reportedDocument a := rfl
    simp only [applyReport, Except.toOption, Option.bind_some, same]
    cases readReport (s.reportedDocument a) report with
    | error fault => exact .inl ⟨rfl, _, rfl⟩
    | ok records =>
      simp only [Option.bind_some]
      cases recorded : s.ledger.record records c.now c.ledgerWrite with
      | error e => exact .inl ⟨rfl, _, rfl⟩
      | ok change =>
        refine .inr ⟨records, change.1, change.2, ?message, rfl, recorded, ?same⟩
        case same =>
          rw [← takeUp_eq]
          rfl

theorem complete_of_taken {s : Session} {a : Analysis} {result : Except Failure (List UInt8)}
    {c : Circumstances} {records : List Record} (taken : s.takesUp? a result c = some records) :
    ∃ ledger, (s.complete a result c).2 = s.settled a records ledger := by
  rcases complete_cases (takesUp?_eq_some_iff.mp taken).1 result c with
    ⟨none, _⟩ | ⟨_, ids, ledger, message, some, recorded, completed⟩
  · cases none.symm.trans taken
  · cases some.symm.trans taken
    exact ⟨ledger, congrArg Prod.snd completed⟩

theorem step_complete (s : Session) (a : Analysis) (result : Except Failure (List UInt8))
    (c : Circumstances) :
    s.Step (.completion a result c) (.ok (s.complete a result c).1) (s.complete a result c).2 := by
  by_cases inFlight : s.running.map Running.id = some a.id
  · obtain ⟨⟨id, discard⟩, running, same⟩ := Option.map_eq_some_iff.mp inFlight
    cases same
    cases discard with
    | false =>
      rcases complete_cases running result c with
        ⟨none, f, completed⟩ | ⟨records, ids, ledger, message, some, recorded, completed⟩
      · rw [completed]
        exact .failed running none
      · rw [completed]
        exact .takenUp running some recorded
    | true =>
      have completed : s.complete a result c = (.ofEvents [.progress false a.title,
          .info "Analysis result discarded: costlens was disabled"],
          { s with running := none }) := by
        simp only [complete, running, if_true]
      rw [completed]
      exact .discarded running
  · have completed : s.complete a result c = (.nothing, s) := by
      unfold complete
      cases running : s.running with
      | none => rfl
      | some r =>
        have other : r.id ≠ a.id := by simpa [running] using inFlight
        exact if_neg other
    rw [completed]
    exact .late inFlight

theorem step_meet (s : Session) (o : Occurrence) : s.Step o (s.meet o).1 (s.meet o).2 := by
  cases o with
  | request r c => exact s.step_handle r c
  | completion a result c => exact s.step_complete a result c
  | folders cache output => exact .folders

end CostWatch.Session

namespace CostWatch

theorem Episode.step (e : Episode) : e.session.Step e.occurrence e.answer e.next :=
  e.session.step_meet e.occurrence

end CostWatch

import CostWatch.Page
import CostWatch.Session.Basic
import CostWatch.Wire.Request

/-!
How a session handles the requests of the editor.

Each operation answers an outcome or a failure, and the session afterwards.
-/

set_option autoImplicit false

namespace CostWatch.Session

abbrev Answer := Except Failure Outcome × Session

def refuse (s : Session) (f : Failure) : Answer :=
  (.error f, s)

def require {α : Type} (s : Session) (condition : Except Failure α) (next : α → Answer) : Answer :=
  match condition with
  | .ok a => next a
  | .error f => s.refuse f

def answer (outcome : Outcome × Session) : Answer :=
  (.ok outcome.1, outcome.2)

def tell (s : Session) (events : List Event) : Answer :=
  (.ok (.ofEvents events), s)

/-! Modes -/

def enableFromCache (s : Session) (mode : Mode) (documents : List CachedDocument) :
    List Event × Session :=
  let count := documents.foldl (fun n c => n + c.records.length) 0
  let s := { s.install documents with mode }.refreshBaseline
  (s.decorations ++
    [.info s!"Loaded {count} cached method costs; re-execute to refresh"], s)

/-- Enables the mode for the active file, from the cache if it has costs for it. -/
def enableForFile (s : Session) : Answer :=
  s.require (s.mode.checkEnable .file) fun _ =>
  s.require s.ensureIdle fun _ =>
  s.require s.activeJava fun document =>
    let cached := (Cache.load? s.cache (Cache.fileName document.stem)).bind fun documents =>
      documents.find? (·.document = document)
    match cached with
    | some entry =>
      let (events, s) := s.enableFromCache .file [entry]
      s.tell events
    | none => answer (s.start (.enable .file) (some document) (s.fileJob document))

def buildWords (command : String) : Except Failure (List String) :=
  match Command.split command with
  | .ok words => .ok words
  | .error fault => .error (.invalidInput (.command command fault))

def enableForProject (s : Session) (command : String) : Answer :=
  s.require (s.mode.checkEnable .project) fun _ =>
  s.require (buildWords command) fun build =>
  s.require s.ensureIdle fun _ =>
    match Cache.load? s.cache Cache.projectName with
    | some documents =>
      let (events, s) := { s with buildCommand := some build }.enableFromCache .project documents
      s.tell events
    | none => answer (s.start (.enable .project) none (s.projectJob build))

def reExecute (s : Session) : Answer :=
  s.require s.mode.requireEnabled fun _ =>
  s.require s.ensureIdle fun _ =>
    if s.mode = .project then
      match s.buildCommand with
      | none => s.refuse (.notApplicable .noBuildCommand)
      | some build => answer (s.start .reExecute none (s.projectJob build))
    else
      s.require s.activeJava fun document =>
        answer (s.start .reExecute (some document) (s.fileJob document))

def reExecuteFileInProject (s : Session) : Answer :=
  if s.mode = .project then
    s.require s.ensureIdle fun _ =>
    s.require s.activeJava fun document =>
      answer (s.start .fileInProject (some document) (s.fileJob document))
  else s.refuse (.notApplicable .onlyInProject)

/-- Shows nothing any more. Costs and histories stay, and the result of a running analysis will be
discarded. -/
def disable (s : Session) : Answer :=
  s.require s.mode.checkDisable fun _ =>
    { s with
      mode := .disabled
      running := s.running.map Running.discarded
      store := s.store.hide
      baselines := .empty
      stale := []
      panels := [] }.tell [.cleared s.panels, .info "Costlens disabled"]

def cleanOutput (s : Session) (c : Circumstances) : Answer :=
  s.require s.ensureIdle fun _ =>
  s.require ((s.cache.remove c.cacheRemoval).mapError Failure.io) fun (_, cache) =>
    let s := { s with cache }
    s.require ((s.output.remove c.outputRemoval).mapError Failure.io) fun (_, output) =>
      let s := { s with output, store := .empty }
      let done := Event.info "Removed cached costs and analyzer output"
      if s.mode.isEnabled then { s with panels := [] }.tell [.cleared s.panels, done]
      else s.tell [done]

/-! Whitelist and panels -/

def whitelistAdd (s : Session) (name : String) (c : Circumstances) : Answer :=
  let (added, ledger) := s.ledger.addName name c.ledgerWrite
  let s := { s with ledger }
  s.require (added.mapError Failure.ofLedger) fun added =>
    let what := if added then "added to the whitelist" else "is already whitelisted"
    s.tell [.info ("'" ++ Text.trim name ++ "' " ++ what)]

def whitelistRemove (s : Session) (name : String) (c : Circumstances) : Answer :=
  let (removed, ledger) := s.ledger.removeName name c.ledgerWrite
  let s := { s with ledger }
  s.require (removed.mapError Failure.ofLedger) fun removed =>
    let what := if removed then "removed from the whitelist" else "is not whitelisted"
    s.tell [.info ("'" ++ Text.trim name ++ "' " ++ what)]

def openDetail (s : Session) (id : MethodId) : Answer :=
  s.require s.mode.requireEnabled fun _ =>
    match (s.ledger.history? id).bind Page.history? with
    | none => s.refuse (.notApplicable (.noHistory id))
    | some page =>
      { s with panels := s.panelsWith .history }.tell
        [.panel .history Page.historyTitle (Page.render page)]

def openOverview (s : Session) (selected : Option String) : Answer :=
  s.require s.mode.requireEnabled fun _ =>
    match s.store.shown with
    | none => s.refuse (.notApplicable .noCosts)
    | some records =>
      let page := Page.overview records selected s.config.display.hideConstructors
      { s with panels := s.panelsWith .overview }.tell
        [.panel .overview Page.overviewTitle (Page.render page)]

/-! Documents -/

/-- The session with another text of the active document; nothing if the document is not active. -/
def withText? (s : Session) (d : Document) (text : String) : Option Session :=
  match s.active with
  | some a => if a.document = d then some { s with active := some ⟨d, text⟩ } else none
  | none => none

def documentActivated (s : Session) (d : Document) (text : String) : Answer :=
  let s := { s with active := some ⟨d, text⟩ }
  if s.mode.isEnabled then
    let s := { s with baselines := Baselines.putIfAbsent s.baselines d text }.selectCurrent
    s.tell s.decorations
  else s.tell []

def documentChanged (s : Session) (d : Document) (text : String) : Answer :=
  match s.withText? d text with
  | none => s.tell []
  | some s => if s.mode.isEnabled then s.tell s.decorations else s.tell []

def significantChange (d : Document) (change : Change) : Event :=
  .warning ("Significant changes in " ++ d.fileName ++ " (" ++ change.summary ++
    "); re-execute to refresh costs")

def markStale (s : Session) (d : Document) : Session :=
  { s with stale := if s.isStale d then s.stale else d :: s.stale }

/-- Tells of a significant change, unless it starts an analysis: it does if the document is active
and the configuration says so. -/
def followUp (s : Session) (d : Document) (change : Change) (isActive : Bool) : Answer :=
  let events := fun (s : Session) =>
    significantChange d change :: if isActive then s.decorations else []
  if isActive && s.config.global.reexecuteOnSignificantSave && !s.isBusy then
    match s.reExecute with
    | (.ok outcome, s) => answer (outcome, s)
    | (.error _, s) => s.tell (events s)
  else s.tell (events s)

/-- Compares a saved text with the baseline, which it replaces. A significant change makes the costs
of the document stale. -/
def compareSaved (s : Session) (d : Document) (text : String) (isActive : Bool) : Answer :=
  if s.mode.isEnabled then
    let baseline := s.baselines.find? d
    let s := { s with baselines := s.baselines.put d text }
    match baseline with
    | none => s.tell []
    | some baseline =>
      let change := Change.check s.extract baseline text s.ledger.whitelist
      if change.isSignificant then (s.markStale d).followUp d change isActive else s.tell []
  else s.tell []

def documentSaved (s : Session) (d : Document) (text : String) : Answer :=
  match s.withText? d text with
  | some s => s.compareSaved d text true
  | none => s.compareSaved d text false

def shutdown (s : Session) (c : Circumstances) : Answer :=
  s.require ((s.ledger.flush c.ledgerWrite).mapError Failure.ofLedger) fun _ => s.tell []

def handle (s : Session) (request : Request) (c : Circumstances) : Answer :=
  match request with
  | .enableForFile => s.enableForFile
  | .enableForProject command => s.enableForProject command
  | .reExecute => s.reExecute
  | .reExecuteFileInProject => s.reExecuteFileInProject
  | .disable => s.disable
  | .cleanOutput => s.cleanOutput c
  | .whitelistAdd name => s.whitelistAdd name c
  | .whitelistRemove name => s.whitelistRemove name c
  | .openDetail id => s.openDetail id
  | .openOverview selected => s.openOverview selected
  | .documentActivated d text => s.documentActivated d text
  | .documentChanged d text => s.documentChanged d text
  | .documentSaved d text => s.documentSaved d text
  | .shutdown => s.shutdown c

end CostWatch.Session

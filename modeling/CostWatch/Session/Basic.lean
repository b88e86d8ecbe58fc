import CostWatch.Change.Baselines
import CostWatch.Change.Significance
import CostWatch.Config
import CostWatch.Cost.Cache
import CostWatch.Cost.Store
import CostWatch.Session.Analysis
import CostWatch.Source.Binding

/-!
The state of a session, and what its operations have in common.

A session owns all that changes: the mode, the costs at hand, the ledger, the baselines, the panels
and the folders that it writes. It starts no analysis itself but hands out at most one at a time.
-/

set_option autoImplicit false

namespace CostWatch

structure ActiveDocument where
  document : Document
  text : String
  deriving DecidableEq, Repr

structure Running where
  id : Nat
  /-- Whether its result is of no use any more. -/
  discard : Bool
  deriving DecidableEq, Repr

def Running.discarded (r : Running) : Running :=
  { r with discard := true }

structure Session where
  config : Config
  extract : Extractor
  mode : Mode
  store : Store
  ledger : Ledger
  baselines : Baselines
  active : Option ActiveDocument
  buildCommand : Option (List String)
  /-- The documents with a significant change since their last analysis. -/
  stale : List Document
  /-- The open panels, in the order of their kinds. -/
  panels : List Panel
  running : Option Running
  nextId : Nat
  cache : Folder
  /-- The output directory of the analyzer. -/
  output : Folder

namespace Session

def new (config : Config) (directory : String) (extract : Extractor) (ledger : Ledger)
    (cache output : Folder) : Session where
  config := config.resolveRoot directory
  extract
  mode := .disabled
  store := .empty
  ledger
  baselines := .empty
  active := none
  buildCommand := none
  stale := []
  panels := []
  running := none
  nextId := 1
  cache
  output

def isBusy (s : Session) : Bool :=
  s.running.isSome

def isStale (s : Session) (d : Document) : Bool :=
  s.stale.contains d

def ensureIdle (s : Session) : Except Failure Unit :=
  if s.isBusy then .error .busy else .ok ()

def activeJava (s : Session) : Except Failure Document :=
  match s.active with
  | none => .error (.invalidInput .noActiveDocument)
  | some a =>
    if a.document.isJava then .ok a.document
    else .error (.invalidInput (.notJava a.document.fileName))

/-! Jobs -/

def fileJob (s : Session) (d : Document) : Job :=
  ⟨.file d.path, Path.append s.config.analyzer.outputDir d.stem, s.config.workspace.root⟩

def projectJob (s : Session) (build : List String) : Job :=
  ⟨.project build, Path.append s.config.analyzer.outputDir "project", s.config.workspace.root⟩

def start (s : Session) (purpose : Purpose) (document : Option Document) (job : Job) :
    Outcome × Session :=
  let analysis : Analysis := ⟨s.nextId, purpose, document, job⟩
  (⟨[.progress true analysis.title], some analysis⟩,
    { s with running := some ⟨s.nextId, false⟩, nextId := s.nextId + 1 })

/-! What is shown -/

/-- Displays the costs of the active document, or nothing. -/
def selectCurrent (s : Session) : Session :=
  match s.active.bind fun a => s.store.get? a.document with
  | some records => { s with store := s.store.display records }
  | none => { s with store := s.store.hide }

def decorationOf (threshold : UInt32) (b : Binding) : Decoration where
  method := b.record.id
  name := b.record.method
  range := b.declaration.range
  nameRange := b.declaration.nameRange
  hover := b.hover
  expensive := b.isExpensive threshold

/-- The decorations of the active document. None while its text has no declarations to be found: the
editor keeps what it shows. -/
def decorations (s : Session) : List Event :=
  match s.active with
  | none => []
  | some a =>
    match s.extract a.text with
    | .error _ => []
    | .ok ds =>
      let bindings := bindDeclarations ds s.store.displayed
      [.decorations a.document (s.isStale a.document)
        (bindings.map (decorationOf s.config.display.expensiveDegree))]

def panelsWith (s : Session) (panel : Panel) : List Panel :=
  [Panel.overview, .history].filter fun p => p == panel || s.panels.contains p

/-! New costs -/

/-- Replaces the costs of one document, which are up to date now. -/
def installDocument (s : Session) (c : CachedDocument) : Session :=
  { s with
    stale := s.stale.filter (· ≠ c.document)
    store := s.store.set c.document c.records }

def install (s : Session) (documents : List CachedDocument) : Session :=
  (documents.foldl installDocument s).selectCurrent

def refreshBaseline (s : Session) : Session :=
  match s.active with
  | none => s
  | some a => { s with baselines := s.baselines.put a.document a.text }

end Session

end CostWatch

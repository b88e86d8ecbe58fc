import CostWatch.Failure
import CostWatch.Cost.History

/-!
The configuration of a session. A configuration file names only the values that differ from the
defaults.
-/

set_option autoImplicit false

namespace CostWatch

structure AnalyzerConfig where
  binary : String := "infer"
  /-- The directory that holds the output directories of the runs. -/
  outputDir : String := "/tmp/infer-out"
  deriving DecidableEq, Repr

structure WorkspaceConfig where
  root : String := "."
  /-- The directory of the caches, seen from the root. -/
  cacheDir : String := "infer-out-vscode"
  deriving DecidableEq, Repr

structure LedgerConfig where
  path : String := "./costlens_ledger.db"
  historyLimit : Option Nat := some HistoryBook.defaultLimit
  deriving DecidableEq, Repr

structure DisplayConfig where
  /-- The degree from which a method is expensive. -/
  expensiveDegree : UInt32 := 2
  /-- Whether the overview leaves out initializers. -/
  hideConstructors : Bool := true
  deriving DecidableEq, Repr

structure GlobalConfig where
  /-- Whether a significant save starts an analysis. -/
  reexecuteOnSignificantSave : Bool := false
  deriving DecidableEq, Repr

structure Config where
  analyzer : AnalyzerConfig := {}
  workspace : WorkspaceConfig := {}
  ledger : LedgerConfig := {}
  display : DisplayConfig := {}
  global : GlobalConfig := {}
  deriving DecidableEq, Repr

namespace Config

open Json

def pathSchema : Schema := .text "path string"

def analyzerSchema : Schema :=
  .record "struct AnalyzerConfig"
    (.cons "binary" .optional pathSchema <| .cons "output_dir" .optional pathSchema .nil)

def workspaceSchema : Schema :=
  .record "struct WorkspaceConfig"
    (.cons "root" .optional pathSchema <| .cons "cache_dir" .optional pathSchema .nil)

def ledgerSchema : Schema :=
  .record "struct LedgerConfig"
    (.cons "db_path" .optional pathSchema <|
      .cons "history_limit" .optional (.nullable (.natural Text.maxWord64 "usize")) .nil)

def displaySchema : Schema :=
  .record "struct DisplayConfig"
    (.cons "expensive_degree" .optional .word32 <|
      .cons "hide_constructors" .optional .boolean .nil)

def globalSchema : Schema :=
  .record "struct GlobalConfig"
    (.cons "reexecute_on_significant_save" .optional .boolean .nil)

def schema : Schema :=
  .record "struct CostlensConfig"
    (.cons "analyzer" .optional analyzerSchema <|
      .cons "workspace" .optional workspaceSchema <|
      .cons "ledger" .optional ledgerSchema <|
      .cons "display" .optional displaySchema <|
      .cons "global" .optional globalSchema .nil)

def analyzerOf : analyzerSchema.Data → AnalyzerConfig
  | (binary, output, ()) =>
    let default : AnalyzerConfig := {}
    ⟨Option.getD binary default.binary, Option.getD output default.outputDir⟩

def workspaceOf : workspaceSchema.Data → WorkspaceConfig
  | (root, cache, ()) =>
    let default : WorkspaceConfig := {}
    ⟨Option.getD root default.root, Option.getD cache default.cacheDir⟩

def ledgerOf : ledgerSchema.Data → LedgerConfig
  | (path, limit, ()) =>
    let default : LedgerConfig := {}
    ⟨Option.getD path default.path, Option.getD limit default.historyLimit⟩

def displayOf : displaySchema.Data → DisplayConfig
  | (degree, hide, ()) =>
    let default : DisplayConfig := {}
    ⟨(Option.map UInt32.ofNat degree).getD default.expensiveDegree,
      Option.getD hide default.hideConstructors⟩

def globalOf : globalSchema.Data → GlobalConfig
  | (reexecute, ()) =>
    let default : GlobalConfig := {}
    ⟨Option.getD reexecute default.reexecuteOnSignificantSave⟩

def ofData : schema.Data → Config
  | (analyzer, workspace, ledger, display, global, ()) =>
    { analyzer := (Option.map analyzerOf analyzer).getD {}
      workspace := (Option.map workspaceOf workspace).getD {}
      ledger := (Option.map ledgerOf ledger).getD {}
      display := (Option.map displayOf display).getD {}
      global := (Option.map globalOf global).getD {} }

def data (c : Config) : schema.Data :=
  (some (some c.analyzer.binary, some c.analyzer.outputDir, ()),
    some (some c.workspace.root, some c.workspace.cacheDir, ()),
    some (some c.ledger.path, some c.ledger.historyLimit, ()),
    some (some c.display.expensiveDegree.toNat, some c.display.hideConstructors, ()),
    some (some c.global.reexecuteOnSignificantSave, ()), ())

def toValue (c : Config) : Value :=
  schema.write c.data

def decode (symbols : List Symbol) : Except Fault Config :=
  match schema.decode symbols with
  | .ok d => .ok (ofData d)
  | .error fault => .error fault

inductive File where
  | absent
  | unreadable (fault : IoFault)
  | content (bytes : List UInt8)

/-- The configuration of a file; without a file, the defaults. -/
def load (path : String) : File → Except Failure Config
  | .absent => .ok {}
  | .unreadable fault => .error (.config (.unreadable path fault))
  | .content bytes =>
    match decode (symbolsOfBytes bytes) with
    | .ok c => .ok c
    | .error fault => .error (.config (.malformed path fault))

def cacheDir (c : Config) : String :=
  Path.append c.workspace.root c.workspace.cacheDir

def resolveRoot (c : Config) (directory : String) : Config :=
  { c with workspace := { c.workspace with root := Path.resolve directory c.workspace.root } }

end Config

end CostWatch

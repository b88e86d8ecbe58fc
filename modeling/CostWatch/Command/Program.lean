import CostWatch.Command.Line
import CostWatch.Java.Declarations
import CostWatch.Session.Completion
import CostWatch.Session.Request

/-!
The program: what each command does in an environment of files, databases and processes.

What goes wrong is told as a chain of reasons, each one the cause of the one before it.
-/

set_option autoImplicit false

namespace CostWatch

structure Environment (m : Type → Type) where
  /-- The directory that the program is started in. -/
  directory : m String
  /-- Reads a file. -/
  read : String → m (Except IoFault (List UInt8))
  /-- The absolute path of what stands at a path. -/
  canonical : String → m (Except IoFault String)
  /-- Opens a database, which is made if there is none. -/
  openStorage : String → m (Except LedgerError Storage)
  /-- Writes a database. -/
  writeStorage : String → Storage → m Unit
  folder : String → m Folder
  /-- Makes a change of what stands at the place of a folder, as far as it can be made. -/
  changeFolder : String → FolderChange → m Unit
  /-- Runs the analyzer, and removes its output directory when its report is read. -/
  run : String → Job → m Ending
  now : m Moment
  /-- Serves an editor to the end of its input. The folders are kept as the session has them. -/
  serve : Session → m (Except Failure Unit × Session)
  out : String → m Unit
  /-- Writes to the standard error output. -/
  err : String → m Unit

/-- A chain of reasons, each one the cause of the one before it. -/
abbrev Reasons := List String

namespace Reasons

def indented (width : Nat) (s : String) : String :=
  String.ofList (s.toList.flatMap fun c =>
    if c == '\n' then '\n' :: List.replicate width ' ' else [c])

/-- The causes behind the first reason. A single one has no number. -/
def causes : Reasons → String
  | [] => ""
  | [cause] => "\n\nCaused by:\n    " ++ indented 4 cause
  | all => "\n\nCaused by:" ++ String.join (all.zipIdx.map fun (cause, n) =>
      let number := toString n
      "\n" ++ String.ofList (List.replicate (5 - number.length) ' ') ++ number ++ ": " ++
        indented 7 cause)

def message : Reasons → String
  | [] => "Error: "
  | first :: rest => "Error: " ++ first ++ causes rest

def ofLedger (e : LedgerError) : Reasons :=
  e.message :: match e with
    | .database reason => [reason]
    | .serialization fault => [fault.message]
    | _ => []

def ofFailure (f : Failure) : Reasons :=
  f.message :: match f with
    | .ledger e => ofLedger e
    | .io fault => [fault.message]
    | _ => []

end Reasons

namespace Program

variable {m : Type → Type} [Monad m]

abbrev Task (m : Type → Type) := ExceptT Reasons m

def orEnd {ε α : Type} (reasons : ε → Reasons) (result : Except ε α) : Task m α :=
  ExceptT.mk (pure (result.mapError reasons))

def orExplain {ε α : Type} (reasons : ε → Reasons) (reason : String) (result : Except ε α) :
    Task m α :=
  orEnd (fun e => reason :: reasons e) result

def configFile : Except IoFault (List UInt8) → Config.File
  | .ok bytes => .content bytes
  | .error .isADirectory => .unreadable .isADirectory
  | .error .permissionDenied => .unreadable .permissionDenied
  | .error (.other reason) => .unreadable (.other reason)
  | .error _ => .absent

def loadConfig (e : Environment m) (path : String) : Task m Config := do
  let file ← e.read path
  orExplain Reasons.ofFailure ("Failed to load config " ++ path)
    (Config.load path (configFile file))

def openLedger (e : Environment m) (config : Config) : m (Except LedgerError Ledger) := do
  match ← e.openStorage config.ledger.path with
  | .error fault => pure (.error fault)
  | .ok storage => pure (Ledger.load storage config.ledger.historyLimit)

def openSession (e : Environment m) (config : Config) : Task m Session := do
  let ledger ← orExplain (fun fault => Reasons.ofFailure (.ofLedger fault))
    "Failed to open the cost ledger" (← ExceptT.lift (openLedger e config))
  let directory ← e.directory
  let resolved := config.resolveRoot directory
  let cache ← e.folder resolved.cacheDir
  let output ← e.folder resolved.analyzer.outputDir
  pure (Session.new config directory Java.extract ledger cache output)

/-- What the requests of a session meet at a time. Folders are removed unless their paths forbid
it. -/
def circumstances (config : Config) (now : Moment) : Circumstances :=
  ⟨now, .succeeds, Files.removalFault? config.cacheDir,
    Files.removalFault? config.analyzer.outputDir⟩

def saveFolders (change : String → FolderChange → m Unit) (before after : Session) : m Unit := do
  (before.cache.changes after.cache).forM (change after.config.cacheDir)
  (before.output.changes after.output).forM (change after.config.analyzer.outputDir)

def saveLedger (e : Environment m) (s : Session) : Task m Unit :=
  e.writeStorage s.config.ledger.path s.ledger.storage

def printNotices (e : Environment m) (events : List Event) : Task m Unit :=
  events.forM fun event =>
    match event with
    | .notice level message => e.err (level.name ++ ": " ++ message ++ "\n")
    | _ => pure ()

def padding (width : Nat) (s : String) : String :=
  String.ofList (List.replicate (width - s.length) ' ')

def row (r : Record) : String :=
  let line := toString r.location.line.toNat
  padding 5 line ++ line ++ "  " ++ r.method ++ padding 24 r.method ++ " " ++
    r.execution.polynomial ++ " -- " ++ r.execution.bigO ++ "\n"

def analyze (e : Environment m) (config : Config) (file : String) (html : Bool) : Task m Unit := do
  let path ← orExplain (fun fault => [IoFault.message fault]) ("Cannot resolve " ++ file)
    (← e.canonical file)
  let content ← e.read path
  let text ← orExplain (fun fault => [IoFault.message fault]) ("Cannot read " ++ path)
    (content.bind fun bytes => (Text.Utf8.decode bytes).mapError fun _ => .notUtf8)
  let opened ← openSession e config
  let (_, s) := opened.documentActivated ⟨path⟩ text
  let (enabled, s) := s.enableForFile
  let outcome ← orEnd Reasons.ofFailure enabled
  printNotices e outcome.events
  let s ← match outcome.analysis with
    | none => pure s
    | some analysis => do
      let binary := s.config.analyzer.binary
      let ending ← e.run binary analysis.job
      let (outcome, s) := s.complete analysis (analysis.job.report binary ending)
        (.favourable (← e.now))
      printNotices e outcome.events
      pure s
  ExceptT.lift (saveFolders e.changeFolder opened s)
  saveLedger e s
  if !s.mode.isEnabled then throw ["Cost analysis of " ++ path ++ " failed"]
  if html then
    let outcome ← orEnd Reasons.ofFailure (s.openOverview none).1
    outcome.events.forM fun event =>
      match event with
      | .panel _ _ page => e.out (page ++ "\n")
      | _ => pure ()
  else
    s.store.displayed.forM fun r =>
      if s.config.display.hideConstructors && r.isInitializer then pure () else e.out (row r)

def historyEntry (latest : Bool) (r : Record) : String :=
  r.timestamp.getD "unknown time" ++ (if latest then " (most recent)" else "") ++
    "\n  execution: " ++ r.execution.polynomial ++ " -- " ++ r.execution.bigO ++
    "\n  allocation: " ++ r.allocation.polynomial ++ " -- " ++ r.allocation.bigO ++ "\n"

def soleLedger (e : Environment m) (config : Config) : Task m Ledger := do
  orExplain Reasons.ofLedger ("Failed to open ledger " ++ config.ledger.path)
    (← ExceptT.lift (openLedger e config))

def history (e : Environment m) (config : Config) (method : String) : Task m Unit := do
  let ledger ← soleLedger e config
  match ledger.history? ⟨method⟩ with
  | none => throw ["No cost history for " ++ method]
  | some entries =>
    entries.zipIdx.forM fun (r, n) => e.out (historyEntry (n == 0) r)

def whitelist (e : Environment m) (config : Config) (action : WhitelistAction) : Task m Unit := do
  let ledger ← soleLedger e config
  let (answer, ledger) := match action with
    | .add name =>
      let (added, ledger) := ledger.addName name .succeeds
      let quoted := "'" ++ Text.trim name ++ "'"
      (added.map fun (isNew : Bool) =>
        if isNew then "Added " ++ quoted ++ "\n" else quoted ++ " is already whitelisted\n", ledger)
    | .remove name =>
      let (removed, ledger) := ledger.removeName name .succeeds
      let quoted := "'" ++ Text.trim name ++ "'"
      (removed.map fun (wasThere : Bool) =>
        if wasThere then "Removed " ++ quoted ++ "\n" else quoted ++ " is not whitelisted\n",
        ledger)
    | .list => (.ok (String.join (ledger.whitelist.names.map (· ++ "\n"))), ledger)
  let text ← orEnd Reasons.ofLedger answer
  e.out text
  e.writeStorage config.ledger.path ledger.storage

/-- Removes caches and analyzer output. A folder that is not removed is emptied all the same. -/
def clean (e : Environment m) (config : Config) : Task m Unit := do
  let opened ← openSession e config
  let c := circumstances opened.config (← e.now)
  let (answer, s) := opened.cleanOutput c
  ExceptT.lift (saveFolders e.changeFolder opened s)
  if c.cacheRemoval.isSome && opened.cache.isThere then
    e.changeFolder s.config.cacheDir .removed
  else if c.outputRemoval.isSome && opened.output.isThere then
    e.changeFolder s.config.analyzer.outputDir .removed
  saveLedger e s
  let outcome ← orEnd Reasons.ofFailure answer
  printNotices e outcome.events

def serve (e : Environment m) (config : Config) : Task m Unit := do
  let s ← openSession e config
  let (result, s) ← e.serve s
  saveLedger e s
  orEnd Reasons.ofFailure result

def perform (e : Environment m) (configPath : String) (command : Command) : Task m Unit := do
  let config ← loadConfig e configPath
  match command with
  | .serve => serve e config
  | .analyze file html => analyze e config file html
  | .history method => history e config method
  | .whitelist action => whitelist e config action
  | .clean => clean e config

def usage : String :=
  "Usage: costlens [--config <CONFIG>] [--log <LOG>] <COMMAND>\n\n" ++
    "Commands:\n" ++
    "  serve                             Serve the editor protocol on stdin and stdout\n" ++
    "  analyze [--html] <FILE>           Analyze one Java file and print its method costs\n" ++
    "  history <METHOD_ID>               Show the cost history of a method\n" ++
    "  whitelist (add|remove|list)       Manage the names exempt from significance checks\n" ++
    "  clean                             Remove cached costs and analyzer output\n"

def version : String := "costlens 0.1.0\n"

def run (e : Environment m) (arguments : List String) : m UInt32 := do
  match CommandLine.read arguments with
  | .help => e.out usage; pure 0
  | .version => e.out version; pure 0
  | .misuse => e.err usage; pure 2
  | .run config command =>
    match ← (perform e config command).run with
    | .ok () => pure 0
    | .error reasons => e.err (reasons.message ++ "\n"); pure 1

end Program

end CostWatch

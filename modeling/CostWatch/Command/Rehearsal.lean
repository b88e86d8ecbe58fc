import CostWatch.Command.Program
import CostWatch.Disk
import CostWatch.Host

/-!
Rehearsals: the program run in memory, on a file system that is a value, with an analyzer that
follows a script and at a time that stands still.
-/

set_option autoImplicit false

namespace CostWatch

structure Rehearsal where
  disk : Disk
  /-- What the editor sends. -/
  input : List UInt8
  now : Moment
  script : Script
  /-- What is written to the standard output. -/
  out : String := ""
  /-- What is written to the standard error output. -/
  err : String := ""

namespace Rehearsal

def runJob (binary : String) (job : Job) : StateM Rehearsal Ending := fun r =>
  let (ending, disk) := r.disk.runJob r.script binary job
  (ending, { r with disk })

def perform (effects : List Effect) : StateM Rehearsal (Option Analysis) := fun r =>
  let events := effects.filterMap fun
    | .send event => some (event.encode ++ "\n")
    | .start _ => none
  let started := effects.filterMap fun
    | .send _ => none
    | .start analysis => some analysis
  (started.getLast?, { r with out := r.out ++ String.join events })

def changeFolder (path : String) (change : FolderChange) : StateM Rehearsal Unit :=
  modify fun r => { r with disk := r.disk.change path change }

/-- Serves an editor that sends all its input at once. An analysis ends after that. -/
def serve (s : Session) : StateM Rehearsal (Except Failure Unit × Session) := do
  let r ← get
  let c := Program.circumstances s.config r.now
  let (effects, h) := (Host.new s).readBytes c r.input
  let first ← perform effects
  let (effects, h) := h.inputOver c
  let last ← perform effects
  Program.saveFolders changeFolder s h.session
  match last.or first with
  | none => pure (.ok (), h.session)
  | some analysis =>
    let binary := s.config.analyzer.binary
    let ending ← runJob binary analysis.job
    let (effects, ended) := h.completed analysis (analysis.job.report binary ending) c
    let _ ← perform effects
    Program.saveFolders changeFolder h.session ended.session
    pure (.ok (), ended.session)

def environment : Environment (StateM Rehearsal) where
  directory := do pure (Disk.pathOf (← get).disk.directory)
  read path := do pure ((← get).disk.read path)
  canonical path := do pure ((← get).disk.canonical path)
  openStorage path := do
    let (answer, disk) := (← get).disk.openStorage path
    modify fun r => { r with disk }
    pure answer
  writeStorage path storage := modify fun r => { r with disk := r.disk.writeStorage path storage }
  folder path := do pure ((← get).disk.folder path)
  changeFolder := changeFolder
  run := runJob
  now := do pure (← get).now
  serve := serve
  out text := modify fun r => { r with out := r.out ++ text }
  err text := modify fun r => { r with err := r.err ++ text }

end Rehearsal

end CostWatch

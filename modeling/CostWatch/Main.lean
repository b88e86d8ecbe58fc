import CostWatch.Command.Program
import CostWatch.Host
import CostWatch.Ledger.Archive
import Std.Time

/-!
The program on real files and streams. Everything is decided elsewhere; here is only read and
written.

A database is a folder with its archive in it. This program starts no processes, so that an analyzer
is never started; it serves what the caches hold.
-/

set_option autoImplicit false

namespace CostWatch.Main

def faultOf : IO.Error → IoFault
  | .noFileOrDirectory _ _ _ => .notFound
  | .permissionDenied _ _ _ => .permissionDenied
  | .alreadyExists _ _ _ => .exists
  | .inappropriateType _ code _ => if code = 21 then .isADirectory else .notADirectory
  | e => .other (toString e)

def trying {α : Type} (action : IO α) : IO (Except IoFault α) := do
  try
    pure (.ok (← action))
  catch e =>
    pure (.error (faultOf e))

def readFile (path : String) : IO (Except IoFault (List UInt8)) :=
  trying do pure (← IO.FS.readBinFile path).toList

def writeFile (path : String) (bytes : List UInt8) : IO Unit :=
  IO.FS.writeBinFile path ⟨bytes.toArray⟩

def canonical (path : String) : IO (Except IoFault String) :=
  trying do
    let place := (← IO.currentDir) / path
    let _ ← place.metadata
    pure (← IO.FS.realPath place).toString

/-- What stands at the place of a folder; of what it holds, only what is directly in it is looked
at. -/
def folder (path : String) : IO Folder := do
  let place := (← IO.currentDir) / path
  if !(← place.pathExists) then return .absent
  if !(← place.isDir) then return .plainFile
  let mut nodes : Table (List String) (Node (List UInt8)) := .empty
  for entry in ← place.readDir do
    let inside := place / entry.fileName
    if ← inside.isDir then
      nodes := nodes.put [entry.fileName] .folder
    else
      match ← readFile inside.toString with
      | .ok bytes => nodes := nodes.put [entry.fileName] (.file bytes)
      | .error _ => pure ()
  return .holding ⟨nodes, false⟩

def changeFolder (path : String) (change : FolderChange) : IO Unit := do
  let _ ← trying do
    match change with
    | .removed => IO.FS.removeDirAll path
    | .written name bytes =>
      IO.FS.createDirAll path
      writeFile (Path.append path name) bytes

def archivePath (path : String) : String :=
  Path.append path "ledger.json"

def openStorage (path : String) : IO (Except LedgerError Storage) := do
  let refuse := fun (fault : IoFault) =>
    Except.error (LedgerError.database ("IO error: " ++ fault.message))
  match ← trying (IO.FS.createDirAll path) with
  | .error fault => pure (refuse fault)
  | .ok () =>
    match ← readFile (archivePath path) with
    | .error .notFound => pure (.ok .empty)
    | .error fault => pure (refuse fault)
    | .ok bytes => pure ((Archive.decode bytes).mapError LedgerError.serialization)

def writeStorage (path : String) (storage : Storage) : IO Unit :=
  writeFile (archivePath path) (Archive.encode storage)

def now : IO Moment := do
  let t ← Std.Time.PlainDateTime.now
  pure ⟨t.year.toInt, t.month.toNat, t.day.toNat, t.hour.toNat, t.minute.toNat,
    t.second.toNat⟩

/-- Runs a job, which no process can be started for. -/
def runJob (_ : String) (_ : Job) : IO Ending :=
  pure (.notStarted (.other "Operation not supported (os error 95)"))

def put (stream : IO.FS.Stream) (text : String) : IO Unit := do
  stream.putStr text
  stream.flush

partial def perform (h : Host) (effects : List Effect) : IO Host := do
  match effects with
  | [] => pure h
  | .send event :: rest =>
    (← IO.getStdout).write ⟨event.line.toArray⟩
    (← IO.getStdout).flush
    perform h rest
  | .start analysis :: rest =>
    let h ← perform h rest
    let binary := h.session.config.analyzer.binary
    let ending ← runJob binary analysis.job
    let (effects, h) := h.completed analysis (analysis.job.report binary ending)
      (.favourable (← now))
    perform h effects

def save (before after : Session) : IO Unit := do
  Program.saveFolders changeFolder before after
  writeStorage after.config.ledger.path after.ledger.storage

partial def nextLine (stream : IO.FS.Stream) (line : ByteArray) : IO (List UInt8) := do
  let bytes ← stream.read 1
  if bytes.isEmpty then pure line.toList
  else if bytes.toList == [10] then pure (line ++ bytes).toList
  else nextLine stream (line ++ bytes)

partial def serveLines (h : Host) : IO Host := do
  if h.isOver then return h
  let bytes ← nextLine (← IO.getStdin) .empty
  let c := Program.circumstances h.session.config (← now)
  let (effects, next) := if bytes.isEmpty then h.inputOver c else h.readBytes c bytes
  let next ← perform next effects
  save h.session next.session
  serveLines next

def serve (s : Session) : IO (Except Failure Unit × Session) := do
  try
    let h ← serveLines (.new s)
    pure (.ok (), h.session)
  catch e =>
    pure (.error (.io (faultOf e)), s)

def environment : Environment IO where
  directory := do pure (← IO.currentDir).toString
  read := readFile
  canonical := canonical
  openStorage := openStorage
  writeStorage := writeStorage
  folder := folder
  changeFolder := changeFolder
  run := runJob
  now := now
  serve := serve
  out text := do put (← IO.getStdout) text
  err text := do put (← IO.getStderr) text

end CostWatch.Main

def main (arguments : List String) : IO UInt32 :=
  CostWatch.Program.run CostWatch.Main.environment arguments

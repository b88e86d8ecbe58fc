import CostWatch.Command.Analyzer
import CostWatch.Folder
import CostWatch.Ledger.Storage

/-!
A file system in memory: files, programs and databases in folders, and a directory that paths are
followed from. Nothing is a link.

A database is a folder with a file in it that holds what is stored.
-/

set_option autoImplicit false

namespace CostWatch

inductive DiskFile where
  | plain (bytes : List UInt8)
  /-- A file that may be executed. -/
  | program
  | database (storage : Storage)

def DiskFile.bytes : DiskFile → List UInt8
  | plain bytes => bytes
  | _ => []

structure Disk where
  files : Files DiskFile
  directory : List String

/-- An analyzer whose runs all go as told: how it ends, what it writes to its error output, and the
report that it leaves, if there is one. -/
structure Script where
  status : ExitStatus
  errors : List UInt8
  report : Option (List UInt8)

namespace Disk

def empty : Disk := ⟨⟨.empty, true⟩, []⟩

def pathOf (names : List String) : String :=
  "/" ++ "/".intercalate names

def canonical (d : Disk) (path : String) : Except IoFault String :=
  match d.files.locate d.directory path with
  | .error fault => .error fault
  | .ok names => if (d.files.node? names).isSome then .ok (pathOf names) else .error .notFound

def read (d : Disk) (path : String) : Except IoFault (List UInt8) :=
  (d.files.read d.directory path).map DiskFile.bytes

def holds (d : Disk) (path : String) : Bool :=
  (d.files.find? d.directory path).isSome

def makeFolder (d : Disk) (path : String) : Option IoFault × Disk :=
  let (fault, files) := d.files.makeFolder d.directory path
  (fault, { d with files })

def writeInto (d : Disk) (folder name : String) (file : DiskFile) : Option IoFault × Disk :=
  match d.makeFolder folder with
  | (some fault, d) => (some fault, d)
  | (none, d) =>
    match d.files.write d.directory (Path.append folder name) file with
    | .error fault => (some fault, d)
    | .ok files => (none, { d with files })

/-- Removes a folder with all that is in it: what stops it, if so, and what is left. -/
def removeFolder (d : Disk) (path : String) : Option IoFault × Disk :=
  let (fault, files) := d.files.removeFolder d.directory path
  (fault, { d with files })

def inside (d : Disk) (names : List String) : List (List String × Node (List UInt8)) :=
  d.files.nodes.entries.filterMap fun (place, node) =>
    if names.isPrefixOf place && place != names then
      some (place.drop names.length, match node with
        | .file file => .file file.bytes
        | .folder => .folder)
    else none

def folder (d : Disk) (path : String) : Folder :=
  match d.files.find? d.directory path with
  | none => .absent
  | some (_, .file _) => .plainFile
  | some (names, .folder) => .holding ⟨.ofList (d.inside names), false⟩

def change (d : Disk) (folder : String) : FolderChange → Disk
  | .removed => (d.removeFolder folder).2
  | .written path bytes => (d.writeInto folder path (.plain bytes)).2

/-! Databases -/

/-- The name of the folder that tells a database from other folders. -/
def markName : String := "blobs"

def storageName : String := "db"

def openStorage (d : Disk) (path : String) : Except LedgerError Storage × Disk :=
  let refuse := fun (fault : IoFault) => Except.error (.database ("IO error: " ++ fault.message))
  let mark := Path.append path markName
  match if d.holds mark then (none, d) else d.makeFolder mark with
  | (some fault, d) => (refuse fault, d)
  | (none, d) =>
    match d.files.read d.directory (Path.append path storageName) with
    | .ok (.database storage) => (.ok storage, d)
    | .error .isADirectory => (refuse .isADirectory, d)
    | _ => (.ok .empty, (d.writeInto path storageName (.database .empty)).2)

def writeStorage (d : Disk) (path : String) (storage : Storage) : Disk :=
  match d.files.read d.directory (Path.append path storageName) with
  | .ok _ => (d.writeInto path storageName (.database storage)).2
  | .error _ => d

/-! Running the analyzer -/

def isCommandName (binary : String) : Bool :=
  !binary.toList.contains '/'

/-- Why a program is not started from a directory, if so. No program of the system is known. -/
def executionFault? (d : Disk) (directory : List String) (binary : String) : Option IoFault :=
  if isCommandName binary then
    if Files.nameLimit < binary.utf8ByteSize then some .nameTooLong
    else if binary = "." ∨ binary = ".." then some .permissionDenied
    else some .notFound
  else
    match d.files.read directory binary with
    | .ok .program => none
    | .ok _ => some .permissionDenied
    | .error .isADirectory => some .permissionDenied
    | .error fault => some fault

def launch (d : Disk) (binary : String) (job : Job) : Except IoFault (List String) :=
  if (binary :: job.workingDir :: job.arguments).any fun text => text.toList.contains '\x00' then
    .error (.other "nul byte found in provided data")
  else
    match d.files.locate d.directory job.workingDir with
    | .error fault => .error fault
    | .ok names =>
      match d.files.node? names with
      | none => .error .notFound
      | some (.file _) => .error .notADirectory
      | some .folder =>
        match d.executionFault? names binary with
        | some fault => .error fault
        | none => .ok names

/-- Leaves a report as a job that was started at a place does: its output directory is followed from
there. -/
def leaveReport (d : Disk) (names : List String) (job : Job) (report : List UInt8) : Disk :=
  let there := { d with directory := names }
  let (_, there) := there.writeInto job.outputDir Job.reportName (.plain report)
  { d with files := there.files }

def runJob (d : Disk) (script : Script) (binary : String) (job : Job) : Ending × Disk :=
  let (ending, d) := match d.launch binary job with
    | .error fault => (Ending.notStarted fault, d)
    | .ok names =>
      let d := match script.report with
        | some report => d.leaveReport names job report
        | none => d
      (Ending.ended script.status script.errors (d.read job.reportPath), d)
  (ending, (d.removeFolder job.outputDir).2)

end Disk

end CostWatch

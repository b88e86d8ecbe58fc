import CostWatch.Files

/-!
Folders: what stands at a place where a directory is expected, with all that is in it.

Only one folder at a time is looked at, and files are named by their path inside it. Writing makes
the folder if there is none; removing takes it away with all that is in it.
-/

set_option autoImplicit false

namespace CostWatch

inductive Folder where
  | absent
  | plainFile
  | holding (files : Files (List UInt8))

inductive FolderChange where
  | removed
  | written (path : String) (bytes : List UInt8)

namespace Folder

def isThere : Folder → Bool
  | absent => false
  | _ => true

def entries : Folder → List (List String × Node (List UInt8))
  | holding files => files.nodes.entries
  | _ => []

def read (folder : Folder) (path : String) : Except IoFault (List UInt8) :=
  match folder with
  | absent => .error ((Files.pathFault? path).getD .notFound)
  | plainFile => .error ((Files.pathFault? path).getD .notADirectory)
  | holding files => files.read [] path

def made : Folder → Except IoFault (Files (List UInt8))
  | absent => .ok ⟨.empty, false⟩
  | plainFile => .error .exists
  | holding files => .ok files

/-- Writes a file: why it is not written, if so, and the folder afterwards. A folder that is made
stays even if the file is not written. -/
def write (folder : Folder) (path : String) (bytes : List UInt8) : Option IoFault × Folder :=
  match folder.made with
  | .error fault => (some fault, folder)
  | .ok files =>
    match files.write [] path bytes with
    | .error fault => (some fault, holding files)
    | .ok files => (none, holding files)

def makeInside (folder : Folder) (path : String) : Option IoFault × Folder :=
  match folder.made with
  | .error fault => (some fault, folder)
  | .ok files =>
    let (fault, files) := files.makeFolder [] path
    (fault, holding files)

def removalFault? (folder : Folder) (refusal : Option IoFault) : Option IoFault :=
  match folder with
  | absent => none
  | plainFile => some (refusal.getD .notADirectory)
  | holding _ => refusal

/-- Removes the folder if it is there; answers whether it was. -/
def remove (folder : Folder) (refusal : Option IoFault) : Except IoFault (Bool × Folder) :=
  match folder.removalFault? refusal with
  | some fault => .error fault
  | none => .ok (folder.isThere, absent)

def additions (before after : Folder) : List FolderChange :=
  after.entries.filterMap fun (names, node) =>
    match node with
    | .file bytes =>
      if before.entries.lookup names = some (.file bytes) then none
      else some (.written ("/".intercalate names) bytes)
    | .folder => none

def changes (before after : Folder) : List FolderChange :=
  let lost := before.entries.any fun (names, _) => (after.entries.lookup names).isNone
  if before.isThere && (!after.isThere || lost) then .removed :: additions absent after
  else additions before after

end Folder

end CostWatch

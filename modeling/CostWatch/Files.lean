import CostWatch.Failure
import CostWatch.Path
import CostWatch.Table

/-!
Files and folders by the names that lead to them, and the ways that paths take among them.

Everything is named from one folder, the start. A step up from the start is a name as well, `..`,
unless the start is the root, above which there is nothing. A path is walked one segment at a time,
so that the first segment that cannot be passed decides what is wrong with it.
-/

set_option autoImplicit false

namespace CostWatch

inductive Node (α : Type) where
  | file (content : α)
  | folder
  deriving DecidableEq

structure Files (α : Type) where
  nodes : Table (List String) (Node α)
  /-- Whether the start is the root. -/
  rooted : Bool

namespace Files

variable {α : Type}

def nameLimit : Nat := 255

/-- The number of bytes that a path does not reach. -/
def pathLimit : Nat := 4096

def isName (segment : String) : Bool :=
  segment != "" && segment != "." && segment != ".."

def segmentsOf (path : String) : List String :=
  (Path.segments path.toList).map String.ofList

def pathFault? (path : String) : Option IoFault :=
  if path.toList.contains '\x00' then some .nulInName
  else if path = "" then some .notFound
  else if pathLimit ≤ path.utf8ByteSize then some .nameTooLong
  else none

/-- What stands at a place. The start and the folders above it are always there. -/
def node? (f : Files α) (names : List String) : Option (Node α) :=
  if names.all (· == "..") then some .folder else f.nodes.find? names

def follow (f : Files α) (names : List String) (segment : String) : List String :=
  if segment = "" ∨ segment = "." then names
  else if segment = ".." then
    if names.all (· == "..") then if f.rooted then [] else names ++ [".."]
    else names.dropLast
  else names ++ [segment]

def enter (f : Files α) (names : List String) (segment : String) :
    Except IoFault (List String) :=
  if nameLimit < segment.utf8ByteSize then .error .nameTooLong
  else
    let names := f.follow names segment
    match f.node? names with
    | some .folder => .ok names
    | some (.file _) => .error .notADirectory
    | none => .error .notFound

/-- The place where the last segment of a path leads, which may be a name for something new. -/
def arrive (f : Files α) (names : List String) (segment : String) :
    Except IoFault (List String) :=
  if !isName segment then f.enter names segment
  else if nameLimit < segment.utf8ByteSize then .error .nameTooLong
  else .ok (names ++ [segment])

def walk (f : Files α) (names : List String) : List String → Except IoFault (List String)
  | [] => .ok names
  | [last] => f.arrive names last
  | segment :: rest =>
    match f.enter names segment with
    | .ok names => f.walk names rest
    | .error fault => .error fault

def origin (directory : List String) (path : String) : List String :=
  if Path.isAbsolute path.toList then [] else directory

def locate (f : Files α) (directory : List String) (path : String) :
    Except IoFault (List String) :=
  match pathFault? path with
  | some fault => .error fault
  | none => f.walk (origin directory path) (segmentsOf path)

def find? (f : Files α) (directory : List String) (path : String) :
    Option (List String × Node α) :=
  match f.locate directory path with
  | .ok names => (f.node? names).map fun node => (names, node)
  | .error _ => none

def read (f : Files α) (directory : List String) (path : String) : Except IoFault α :=
  match f.locate directory path with
  | .error fault => .error fault
  | .ok names =>
    match f.node? names with
    | some (.file content) => .ok content
    | some .folder => .error .isADirectory
    | none => .error .notFound

def put (f : Files α) (names : List String) (node : Node α) : Files α :=
  { f with nodes := f.nodes.put names node }

def write (f : Files α) (directory : List String) (path : String) (content : α) :
    Except IoFault (Files α) :=
  match f.locate directory path with
  | .error fault => .error fault
  | .ok names =>
    match f.node? names with
    | some .folder => .error .isADirectory
    | _ => .ok (f.put names (.file content))

/-- Makes the folders on a way that are not there: what stops it, if so, and what there is then. A
file where a folder is wanted is reported as being in the place of one that is to be made, if it is
at the end of the way or behind a folder that had to be made (`made`). -/
def makeWay (f : Files α) (names : List String) (made : Bool) :
    List String → Option IoFault × Files α
  | [] => (none, f)
  | segment :: rest =>
    if nameLimit < segment.utf8ByteSize then (some .nameTooLong, f)
    else
      let names := f.follow names segment
      match f.node? names with
      | some .folder => makeWay f names made rest
      | some (.file _) => (some (if made || rest.isEmpty then .exists else .notADirectory), f)
      | none => makeWay (f.put names .folder) names true rest

def makeFolder (f : Files α) (directory : List String) (path : String) :
    Option IoFault × Files α :=
  if path = "" then (none, f)
  else
    match pathFault? path with
    | some fault => (some fault, f)
    | none => f.makeWay (origin directory path) false (segmentsOf path)

def clear (f : Files α) (names : List String) : Files α :=
  { f with nodes := f.nodes.filter fun place => place = names ∨ ¬ names.isPrefixOf place }

def remove (f : Files α) (names : List String) : Files α :=
  { f with nodes := f.nodes.filter fun place => ¬ names.isPrefixOf place }

/-- Why the folder that a path names is not removed, although all in it is: it is named as a place
to stay at, or to go up to, or it is the root. -/
def removalFault? (path : String) : Option IoFault :=
  match ((segmentsOf path).filter (· != "")).getLast? with
  | none => if path = "" then none else some .busy
  | some "." => some .invalidArgument
  | some ".." => some .notEmpty
  | some _ => none

def removeFolder (f : Files α) (directory : List String) (path : String) :
    Option IoFault × Files α :=
  match f.find? directory path with
  | none => (none, f)
  | some (_, .file _) => (some .notADirectory, f)
  | some (names, .folder) =>
    match removalFault? path with
    | none => (none, f.remove names)
    | some fault => (some fault, f.clear names)

@[simp] theorem node?_put (f : Files α) (names other : List String) (node : Node α)
    (below : names.all (· == "..") = false) :
    (f.put names node).node? other = if other = names then some node else f.node? other := by
  by_cases same : other = names
  · subst same
    simp [node?, put, below]
  · simp [node?, put, same]

end Files

end CostWatch

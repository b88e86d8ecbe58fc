/-!
File paths as text: their components, and the places that they lead to.

A path is cut at its slashes. Empty components and dots count for nothing, except for a dot at the
very beginning. `resolve` follows a path from a base without looking at any file system, so that
every spelling of a place gives the same text.
-/

set_option autoImplicit false

namespace CostWatch.Path

inductive Component where
  | root
  | here
  | up
  | name (cs : List Char)
  deriving DecidableEq

def segments : List Char → List (List Char)
  | [] => [[]]
  | '/' :: rest => [] :: segments rest
  | c :: rest =>
    match segments rest with
    | [] => [[c]]
    | first :: others => (c :: first) :: others

def Component.ofSegment? (segment : List Char) : Option Component :=
  if segment = [] ∨ segment = ['.'] then none
  else if segment = ['.', '.'] then some .up
  else some (.name segment)

def leading (path : List Char) : List Component :=
  match path with
  | '/' :: _ => [.root]
  | ['.'] => [.here]
  | '.' :: '/' :: _ => [.here]
  | _ => []

def components (path : List Char) : List Component :=
  leading path ++ (segments path).filterMap Component.ofSegment?

def isAbsolute (path : List Char) : Bool :=
  path.head? == some '/'

def fileName? (path : List Char) : Option (List Char) :=
  match (components path).getLast? with
  | some (.name cs) => some cs
  | _ => none

def splitAtLastDot (cs : List Char) : Option (List Char × List Char) :=
  match cs.reverse.span (· != '.') with
  | (_, []) => none
  | (suffix, _ :: stem) => some (stem.reverse, suffix.reverse)

/-- A file name without its extension; a dot at the beginning starts no extension. -/
def stemOf (name : List Char) : List Char :=
  match splitAtLastDot name with
  | some ([], _) => name
  | some (stem, _) => stem
  | none => name

def extensionOf? (name : List Char) : Option (List Char) :=
  match splitAtLastDot name with
  | some ([], _) => none
  | some (_, extension) => some extension
  | none => none

/-- A path followed from a base, as text: nothing is folded. -/
def join (base path : List Char) : List Char :=
  if isAbsolute path then path
  else if base = [] ∨ base.getLast? = some '/' then base ++ path
  else base ++ '/' :: path

/-- A place: names to be followed from the root or from an unknown directory. -/
structure Place where
  absolute : Bool
  names : List (List Char)
  deriving DecidableEq

/-- One step along a path. A step up from the beginning leads nowhere else. -/
def Place.step (place : Place) : Component → Place
  | .root => ⟨true, []⟩
  | .here => place
  | .up => { place with names := place.names.dropLast }
  | .name cs => { place with names := place.names ++ [cs] }

def joinNames : List (List Char) → List Char
  | [] => []
  | [name] => name
  | name :: rest => name ++ '/' :: joinNames rest

def Place.text (place : Place) : List Char :=
  if place.absolute then '/' :: joinNames place.names else joinNames place.names

def placeOf (path : List Char) : Place :=
  (components path).foldl Place.step ⟨false, []⟩

def resolve (base path : String) : String :=
  String.ofList (placeOf (join base.toList path.toList)).text

def append (base path : String) : String :=
  String.ofList (join base.toList path.toList)

end CostWatch.Path

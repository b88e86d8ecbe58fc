import CostWatch.Change.Digest
import CostWatch.Change.Normal
import CostWatch.Cost.Whitelist
import CostWatch.Source.Declaration

/-!
Significance of a change: whether an edit may have changed the cost of a method.

Two texts are compared method by method. Methods of one name are told apart by their position among
each other, and their bodies are compared by the fingerprints of their normal forms. Methods on the
whitelist are exempt. A text whose declarations cannot be found counts as changed: distrusting costs
without need is better than trusting outdated ones.
-/

set_option autoImplicit false

namespace CostWatch

/-- A method of a text: its name, and how many methods of that name are declared before it. -/
structure MethodKey where
  name : String
  ordinal : Nat
  deriving DecidableEq, Repr

def MethodKey.before (a b : MethodKey) : Bool :=
  a.name < b.name || (a.name == b.name && a.ordinal < b.ordinal)

abbrev Fingerprint := List UInt32

def fingerprint (body : String) : Fingerprint :=
  Digest.digest (Text.Utf8.encode (Normal.normalize body))

/-- The fingerprints of the methods of a text, in the order of their keys. A method without a body
has none. -/
abbrev Fingerprints := List (MethodKey × Option Fingerprint)

namespace Fingerprints

def insert (key : MethodKey) (print : Option Fingerprint) : Fingerprints → Fingerprints
  | [] => [(key, print)]
  | entry :: rest =>
    if key.before entry.1 then (key, print) :: entry :: rest else entry :: insert key print rest

def ofDeclarationsAfter (text : String) (names : List String) : List Declaration → Fingerprints
  | [] => []
  | d :: rest =>
    insert ⟨d.name, names.count d.name⟩ ((d.bodyText text).map fingerprint)
      (ofDeclarationsAfter text (d.name :: names) rest)

def ofDeclarations (text : String) (ds : List Declaration) : Fingerprints :=
  ofDeclarationsAfter text [] ds

def namesWhere (prints : Fingerprints) (condition : MethodKey → Option Fingerprint → Bool) :
    List String :=
  (prints.filter fun entry => condition entry.1 entry.2).map (·.1.name)

end Fingerprints

inductive ComparisonFault where
  | baseline (fault : ExtractFault)
  | current (fault : ExtractFault)
  deriving DecidableEq, Repr

def ComparisonFault.message : ComparisonFault → String
  | baseline fault => "snapshot: " ++ fault.message
  | current fault => "current text: " ++ fault.message

/-- What has changed from one text to another: the names of methods with other bodies, of methods
that came and went, and of methods on the whitelist that did any of this. -/
structure Change where
  changed : List String
  added : List String
  removed : List String
  exempted : List String
  fault : Option ComparisonFault
  deriving DecidableEq, Repr

namespace Change

def none : Change :=
  ⟨[], [], [], [], Option.none⟩

def unknown (fault : ComparisonFault) : Change :=
  { none with fault := some fault }

def isSignificant (c : Change) : Bool :=
  c.fault.isSome || !(c.changed.isEmpty && c.added.isEmpty && c.removed.isEmpty)

def summary (c : Change) : String :=
  match c.fault with
  | some fault => "could not compare methods (" ++ fault.message ++ ")"
  | Option.none =>
    if c.isSignificant then
      let part := fun (title : String) (names : List String) =>
        if names.isEmpty then [] else [title ++ ": " ++ ", ".intercalate names]
      "; ".intercalate
        (part "changed" c.changed ++ part "added" c.added ++ part "removed" c.removed)
    else "no significant changes"

def between (before after : Fingerprints) (whitelist : Whitelist) : Change :=
  let counts := fun (key : MethodKey) => !whitelist.contains key.name
  let isNew := fun (key : MethodKey) => (before.lookup key).isNone
  let isGone := fun (key : MethodKey) => (after.lookup key).isNone
  let differs := fun (key : MethodKey) (print : Option Fingerprint) =>
    !isGone key && after.lookup key != some print
  { changed := before.namesWhere fun key print => counts key && differs key print
    added := after.namesWhere fun key _ => counts key && isNew key
    removed := before.namesWhere fun key _ => counts key && isGone key
    exempted :=
      before.namesWhere (fun key print => !counts key && (differs key print || isGone key)) ++
        after.namesWhere (fun key _ => !counts key && isNew key)
    fault := Option.none }

/-- The change from one text to another. Equal texts are not looked into. -/
def check (extract : Extractor) (baseline current : String) (whitelist : Whitelist) : Change :=
  if baseline = current then none
  else
    match extract baseline with
    | .error fault => unknown (.baseline fault)
    | .ok before =>
      match extract current with
      | .error fault => unknown (.current fault)
      | .ok after =>
        between (.ofDeclarations baseline before) (.ofDeclarations current after) whitelist

end Change

end CostWatch

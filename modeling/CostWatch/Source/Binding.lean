import CostWatch.Source.Declaration

/-!
Bindings of records to declarations.

Each record, in the order of the list, takes the first declaration of its name that no record before
it has taken. Records and declarations for which nothing is left stay unbound.
-/

set_option autoImplicit false

namespace CostWatch

/-- A record and the declaration it belongs to, each with its position in its list. -/
structure Binding where
  declaration : Declaration
  declarationIndex : Nat
  record : Record
  recordIndex : Nat
  deriving DecidableEq, Repr

namespace Binding

def hover (b : Binding) : String :=
  "Execution cost: " ++ b.record.execution.polynomial ++ " -- " ++ b.record.execution.bigO

def isExpensive (b : Binding) (threshold : UInt32) : Bool :=
  match b.record.execution.degree with
  | some degree => threshold ≤ degree
  | none => true

end Binding

/-- Takes the first declaration of a name out of a list of declarations with their positions. -/
def claim? (name : String) :
    List (Declaration × Nat) → Option ((Declaration × Nat) × List (Declaration × Nat))
  | [] => none
  | entry :: rest =>
    if entry.1.name = name then some (entry, rest)
    else (claim? name rest).map fun (claimed, left) => (claimed, entry :: left)

def bindUnclaimed (unclaimed : List (Declaration × Nat)) : List (Record × Nat) → List Binding
  | [] => []
  | (r, i) :: rest =>
    match claim? r.method unclaimed with
    | some ((d, j), left) => ⟨d, j, r, i⟩ :: bindUnclaimed left rest
    | none => bindUnclaimed unclaimed rest

def bindDeclarations (ds : List Declaration) (rs : List Record) : List Binding :=
  bindUnclaimed ds.zipIdx rs.zipIdx

end CostWatch

/-!
Trees: what has been read.

A tree is a token or a named phrase with its parts. Where a text has two readings of the same
weight, the order of trees decides between them.
-/

set_option autoImplicit false

namespace CostWatch.Grammar

inductive Tree (Name Token : Type) where
  | leaf (token : Token)
  | node (name : Name) (parts : List (Tree Name Token))

variable {Name Token : Type}

mutual

def Tree.first? : Tree Name Token → Option Token
  | .leaf token => some token
  | .node _ parts => firstOf? parts

def firstOf? : List (Tree Name Token) → Option Token
  | [] => none
  | tree :: rest =>
    match tree.first? with
    | some token => some token
    | none => firstOf? rest

end

mutual

def Tree.last? : Tree Name Token → Option Token
  | .leaf token => some token
  | .node _ parts => lastOf? parts

def lastOf? : List (Tree Name Token) → Option Token
  | [] => none
  | tree :: rest =>
    match lastOf? rest with
    | some token => some token
    | none => tree.last?

end

mutual

/-- The order of trees: a token is before a phrase, and phrases go by their names, then by how many
parts they have, then by the first parts that differ. -/
def Tree.compare (number : Name → Nat) : Tree Name Token → Tree Name Token → Ordering
  | .leaf _, .leaf _ => .eq
  | .leaf _, .node _ _ => .lt
  | .node _ _, .leaf _ => .gt
  | .node a as, .node b bs =>
    ((Ord.compare (number a) (number b)).then (Ord.compare as.length bs.length)).then
      (compareParts number as bs)

def compareParts (number : Name → Nat) : List (Tree Name Token) → List (Tree Name Token) → Ordering
  | [], _ => .eq
  | _, [] => .eq
  | a :: as, b :: bs => (a.compare number b).then (compareParts number as bs)

end

def isBefore (number : Name → Nat) (as bs : List (Tree Name Token)) : Bool :=
  ((Ord.compare as.length bs.length).then (compareParts number as bs)) == .lt

end CostWatch.Grammar

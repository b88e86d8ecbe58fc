/-!
Rules: how the phrases of a language are put together.

A rule describes sequences of terminals and of named phrases. What a rule stands for is a list of
alternatives, each of them a list of steps. Ranks settle conflicts between reading on and finishing
a phrase: a step carries the rank of the innermost ranked part of the rule that it belongs to.
Weights tell which one of two readings of the same text counts.
-/

set_option autoImplicit false

namespace CostWatch.Grammar

/-- What wins between two readings with steps of the same level: finishing the phrase on the left,
or reading on to the right. -/
inductive Side where
  | left
  | right
  deriving DecidableEq, Repr

structure Rank where
  level : Int := 0
  side : Option Side := none
  deriving DecidableEq, Repr

inductive Rule (Terminal Name : Type) where
  /-- The empty sequence. -/
  | nothing
  | terminal (terminal : Terminal)
  | phrase (name : Name)
  | followedBy (first second : Rule Terminal Name)
  | orElse (first second : Rule Terminal Name)
  /-- The same sequences, with steps of a rank. -/
  | ranked (rank : Rank) (rule : Rule Terminal Name)
  /-- The same sequences, with a weight. -/
  | weighing (weight : Nat) (rule : Rule Terminal Name)

structure Step (Terminal Name : Type) where
  symbol : Terminal ⊕ Name
  rank : Rank

structure Alternative (Terminal Name : Type) where
  steps : List (Step Terminal Name)
  weight : Nat

namespace Alternative

variable {Terminal Name : Type}

def append (first second : Alternative Terminal Name) : Alternative Terminal Name :=
  ⟨first.steps ++ second.steps, max first.weight second.weight⟩

def endingIn (rank : Rank) (alternative : Alternative Terminal Name) :
    Alternative Terminal Name :=
  { alternative with
    steps := match alternative.steps.reverse with
      | [] => []
      | last :: before => (⟨last.symbol, rank⟩ :: before).reverse }

end Alternative

namespace Rule

variable {Terminal Name : Type}

/-- The sequences that a rule stands for. `rank` is the rank of what is around it, and `last` tells
whether nothing follows it; where something does, the last step of a ranked part has the rank of
what is around the part. -/
def alternatives (rank : Rank) (last : Bool) :
    Rule Terminal Name → List (Alternative Terminal Name)
  | nothing => [⟨[], 0⟩]
  | terminal t => [⟨[⟨.inl t, rank⟩], 0⟩]
  | phrase name => [⟨[⟨.inr name, rank⟩], 0⟩]
  | followedBy first second =>
    (first.alternatives rank false).flatMap fun a =>
      (second.alternatives rank last).map a.append
  | orElse first second => first.alternatives rank last ++ second.alternatives rank last
  | ranked inner rule =>
    let inner : Rank := ⟨inner.level, inner.side <|> rank.side⟩
    let inside := rule.alternatives inner last
    if last then inside else inside.map (Alternative.endingIn rank)
  | weighing weight rule =>
    (rule.alternatives rank last).map fun a => { a with weight := max a.weight weight }

def inOrder : List (Rule Terminal Name) → Rule Terminal Name
  | [] => nothing
  | [rule] => rule
  | rule :: rest => followedBy rule (inOrder rest)

def oneOf : List (Rule Terminal Name) → Rule Terminal Name
  | [] => nothing
  | [rule] => rule
  | rule :: rest => orElse rule (oneOf rest)

def optional (rule : Rule Terminal Name) : Rule Terminal Name :=
  orElse rule nothing

def listOf (name : Name) (item : Rule Terminal Name) : Rule Terminal Name :=
  orElse (followedBy (phrase name) item) item

def maybe (name : Name) : Rule Terminal Name :=
  optional (phrase name)

end Rule

end CostWatch.Grammar

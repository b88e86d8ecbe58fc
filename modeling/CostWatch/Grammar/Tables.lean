import CostWatch.Grammar.Rule
import CostWatch.NatMap

/-!
Tables: what has to be known of a grammar before a text is read.

Terminals and phrases go by numbers here, and sets of terminals are natural numbers, bit by bit. The
first two bits are set apart: one for the end of the text, and one for whatever may follow the
phrase that a set belongs to.
-/

set_option autoImplicit false

namespace CostWatch.Grammar

/-- A language: its phrases in a certain order, what each of them stands for, and the phrase that a
text as a whole is. The parts of a list become parts of the phrase that the list stands in. -/
structure Language (Terminal Name : Type) where
  /-- The place of a terminal among all terminals. -/
  terminalNumber : Terminal → Nat
  names : List Name
  /-- The place of a phrase among all phrases. -/
  number : Name → Nat
  rule : Name → Rule Terminal Name
  start : Name
  isList : Name → Bool

/-! Sets of terminals -/

/-- A set of terminals, and of the end of the text. -/
abbrev Terminals := Nat

def endOfText : Nat := 0

def whatFollows : Nat := 1

def bitOf (terminal : Nat) : Nat := terminal + 2

def only (bit : Nat) : Terminals :=
  1 <<< bit

def followedBy (follow : Terminals) (ahead : Terminals) : Terminals :=
  if ahead.testBit whatFollows then (ahead ^^^ only whatFollows) ||| follow else ahead

/-! Productions -/

/-- A terminal, by its bit, or a phrase, by its place. -/
abbrev Symbol := Nat ⊕ Nat

structure Production where
  head : Nat
  /-- The place among the productions of the phrase. -/
  index : Nat
  steps : List (Step Nat Nat)
  weight : Nat

structure Tables where
  firsts : NatMap Terminals
  /-- What may follow the phrases that a phrase may begin with, itself included; nothing may follow
  the other ones. -/
  corners : NatMap (NatMap Terminals)
  /-- The productions that begin with a terminal, by their heads. -/
  onTerminal : NatMap (List (Nat × List Production))
  /-- The productions that begin with a phrase, by their heads. -/
  onPhrase : NatMap (List (Nat × List Production))

namespace Language

variable {Terminal Name : Type}

def size (language : Language Terminal Name) : Nat :=
  language.names.length

def numbered (language : Language Terminal Name) (step : Step Terminal Name) : Step Nat Nat :=
  ⟨match step.symbol with
    | .inl terminal => .inl (bitOf (language.terminalNumber terminal))
    | .inr name => .inr (language.number name), step.rank⟩

def productionsOf (language : Language Terminal Name) (name : Name) : List Production :=
  let alternatives := ((language.rule name).alternatives {} true).filter (!·.steps.isEmpty)
  alternatives.zipIdx.map fun (a, index) =>
    ⟨language.number name, index, a.steps.map language.numbered, a.weight⟩

def whole (language : Language Terminal Name) : Production :=
  ⟨language.size, 0, [⟨.inr (language.number language.start), {}⟩], 0⟩

end Language

/-! What phrases begin with -/

def firstOf (firsts : NatMap Terminals) : Symbol → Terminals
  | .inl bit => only bit
  | .inr name => firsts.getD name 0

def openings (productions : List Production) : Terminals × List Nat :=
  productions.foldl (fun (terminals, names) p =>
    match p.steps with
    | [] => (terminals, names)
    | ⟨.inl bit, _⟩ :: _ => (terminals ||| only bit, names)
    | ⟨.inr name, _⟩ :: _ => (terminals, if names.contains name then names else name :: names))
    (0, [])

/-- The terminals that phrases may begin with, given what their productions begin with, and some of
the terminals. `rounds` bounds how often more are looked for. -/
def firstsFrom (openings : List (Terminals × List Nat)) :
    Nat → NatMap Terminals → NatMap Terminals
  | 0, firsts => firsts
  | rounds + 1, firsts =>
    let (firsts, more) := openings.zipIdx.foldl (fun (firsts, more) ((terminals, names), place) =>
      let old := firsts.getD place 0
      let new := names.foldl (fun set name => set ||| firsts.getD name 0) (old ||| terminals)
      if new == old then (firsts, more) else (firsts.insert place new, true)) (firsts, false)
    if more then firstsFrom openings rounds firsts else firsts

def followOf (firsts : NatMap Terminals) : List (Step Nat Nat) → Terminals
  | [] => only whatFollows
  | step :: _ => firstOf firsts step.symbol

def listing (name : Nat) (ahead : Terminals) : List (Nat × Terminals) → List (Nat × Terminals)
  | [] => [(name, ahead)]
  | (other, set) :: rest =>
    if other == name then (name, set ||| ahead) :: rest
    else (other, set) :: listing name ahead rest

def leadersOf (firsts : NatMap Terminals) (productions : List Production) :
    List (Nat × Terminals) :=
  productions.foldl (fun found p =>
    match p.steps with
    | ⟨.inr name, _⟩ :: rest => listing name (followOf firsts rest) found
    | _ => found) []

/-- Follows leaders from pending phrases. `rounds` bounds how many phrases are visited. -/
def spread (leaders : NatMap (List (Nat × Terminals))) :
    Nat → List Nat → NatMap Terminals → NatMap Terminals
  | 0, _, reached => reached
  | _, [], reached => reached
  | rounds + 1, name :: pending, reached =>
    let follow := reached.getD name 0
    let visit := fun (reached, pending) (leader, ahead) =>
      let old := reached.getD leader 0
      let new := old ||| followedBy follow ahead
      if new == old then (reached, pending) else (reached.insert leader new, leader :: pending)
    let (reached, pending) := (leaders.getD name []).foldl visit (reached, pending)
    spread leaders rounds pending reached

def cornersOf (rounds : Nat) (leaders : NatMap (List (Nat × Terminals))) (name : Nat) :
    NatMap Terminals :=
  spread leaders rounds [name] (NatMap.empty.insert name (only whatFollows))

/-! Productions by what they begin with -/

def heading (production : Production) :
    List (Nat × List Production) → List (Nat × List Production)
  | [] => [(production.head, [production])]
  | (head, productions) :: rest =>
    if head == production.head then (head, production :: productions) :: rest
    else (production.head, [production]) :: (head, productions) :: rest

def beginningWith (symbol : Symbol) (productions : List Production) :
    List (Nat × List Production) :=
  (productions.filter fun p => p.steps.head?.any (·.symbol == symbol)).foldr heading []

def Language.tables {Terminal Name : Type} (language : Language Terminal Name)
    (terminals : Nat) : Tables :=
  let places := List.range language.size
  let grouped := language.names.map language.productionsOf
  let productions := grouped.flatten
  let firsts := firstsFrom (grouped.map openings) language.size .empty
  let leaders := NatMap.ofList (grouped.map (leadersOf firsts))
  { firsts
    corners := NatMap.ofList
      (places.map (cornersOf (language.size * bitOf terminals) leaders))
    onTerminal := NatMap.ofList
      ((List.range (bitOf terminals)).map fun bit => beginningWith (.inl bit) productions)
    onPhrase := NatMap.ofList (places.map fun place => beginningWith (.inr place) productions) }

end CostWatch.Grammar

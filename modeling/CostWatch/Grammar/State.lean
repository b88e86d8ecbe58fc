import CostWatch.Grammar.Tables

/-!
States: what may come next.

An item is a production some steps of which have been taken, with the terminals that may follow it.
A state holds the items of all productions that are under way at a place; which productions may
begin there follows from them. What a state does with a terminal is settled by ranks where it can
both read on and finish a phrase.
-/

set_option autoImplicit false

namespace CostWatch.Grammar

structure Item where
  production : Production
  /-- How many steps have been taken. -/
  taken : Nat
  /-- The rank of the last step taken. -/
  rank : Rank
  /-- The steps that are left. -/
  rest : List (Step Nat Nat)
  following : Terminals

namespace Item

def over? (symbol : Symbol) (item : Item) : Option Item :=
  match item.rest with
  | [] => none
  | step :: rest =>
    if step.symbol == symbol then
      some { item with taken := item.taken + 1, rank := step.rank, rest }
    else none

def begun? (following : Terminals) (production : Production) : Option Item :=
  match production.steps with
  | [] => none
  | step :: rest => some ⟨production, 1, step.rank, rest, following⟩

def isSame (a b : Item) : Bool :=
  a.production.head == b.production.head && a.production.index == b.production.index &&
    a.taken == b.taken && a.following == b.following

end Item

structure State where
  items : List Item
  /-- The phrases that come next in items, and what may follow them. -/
  phrases : List (Nat × Terminals)
  /-- The terminals that may come next. -/
  admitted : Terminals

namespace State

def nextPhrases (tables : Tables) (items : List Item) : List (Nat × Terminals) :=
  items.foldl (fun found item =>
    match item.rest with
    | ⟨.inr name, _⟩ :: rest =>
      listing name (followedBy item.following (followOf tables.firsts rest)) found
    | _ => found) []

def ofItems (tables : Tables) (items : List Item) : State where
  items
  phrases := nextPhrases tables items
  admitted := items.foldl (fun set item => set |||
    match item.rest with
    | [] => item.following
    | step :: _ => firstOf tables.firsts step.symbol) 0

/-- What may follow a phrase that may begin in a state; nothing, if it may not begin there. -/
def expected (tables : Tables) (state : State) (name : Nat) : Terminals :=
  state.phrases.foldl (fun set (outer, follow) =>
    match (tables.corners.getD outer .empty).getD name 0 with
    | 0 => set
    | ahead => set ||| followedBy follow ahead) 0

def after (tables : Tables) (symbol : Symbol) (state : State) : State :=
  let beginning := match symbol with
    | .inl bit => tables.onTerminal.getD bit []
    | .inr name => tables.onPhrase.getD name []
  ofItems tables <| state.items.filterMap (Item.over? symbol) ++
    beginning.flatMap fun (head, productions) =>
      match state.expected tables head with
      | 0 => []
      | following => productions.filterMap (Item.begun? following)

def isSame (a b : State) : Bool :=
  a.items.length == b.items.length && (a.items.zip b.items).all fun (x, y) => x.isSame y

structure Decision where
  finished : List Production
  reads : Bool

def topLevel : List Item → Int
  | [] => 0
  | [item] => item.rank.level
  | item :: rest => max item.rank.level (topLevel rest)

/-- What is done on a terminal. Of the productions that could be finished those with the highest
level count. Where the terminal could be read too, the higher level wins; of equal levels the side
decides, if all productions agree on it, and otherwise both is done. -/
def decide (tables : Tables) (state : State) (bit : Nat) : Decision :=
  let complete := state.items.filter fun item => item.rest.isEmpty && item.following.testBit bit
  let level := topLevel complete
  let complete := complete.filter (·.rank.level == level)
  let finished := complete.map (·.production)
  let open_ := state.items.filter fun item =>
    match item.rest with
    | [] => false
    | step :: _ => (firstOf tables.firsts step.symbol).testBit bit
  if open_.isEmpty then ⟨finished, false⟩
  else if finished.isEmpty then ⟨[], true⟩
  else
    let open_ := open_.filter (0 < ·.taken)
    match open_.any (level < ·.rank.level), open_.any (·.rank.level < level) with
    | true, false => ⟨[], true⟩
    | false, true => ⟨finished, false⟩
    | true, true => ⟨finished, true⟩
    | false, false =>
      if complete.all (·.rank.side == some .left) then ⟨finished, false⟩
      else if complete.all (·.rank.side == some .right) then ⟨[], true⟩
      else ⟨finished, true⟩

end State

end CostWatch.Grammar

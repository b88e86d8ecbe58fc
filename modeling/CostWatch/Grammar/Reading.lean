import CostWatch.Grammar.State
import CostWatch.Grammar.Tree

/-!
Readings: a text is read in all the ways in which it can be read.

A node is a state at a place of the text, with links to the nodes before it; a link holds the trees
of what has been read in between. Several readings of a text go on side by side, each of them from a
head. Readings that come to the same state at the same place go on as one: their nodes become one
node with the links of both. Tokens are taken from the text one at a time, and which token is taken
depends on what the state of the head admits.
-/

set_option autoImplicit false

namespace CostWatch.Grammar

inductive Next (Place Token : Type) where
  /-- Nothing comes next that is admitted. -/
  | nothing
  | endOfText
  /-- A token, which is the terminal with a certain bit, and the place behind it. -/
  | token (bit : Nat) (token : Token) (place : Place)

/-- A text to read: what comes next at a place, where certain terminals are admitted. `offset` tells
places apart, later ones from earlier ones. -/
structure Text (Place Token : Type) where
  next : Terminals → Place → Next Place Token
  offset : Place → Nat

structure Link (Name Token : Type) where
  /-- The node before. -/
  earlier : Nat
  symbol : Symbol
  /-- How many steps the symbol has been put together from. -/
  steps : Nat
  parts : List (Tree Name Token)
  weight : Nat

structure Node (Name Place Token : Type) where
  state : State
  place : Place
  /-- The weight of all that has been read. -/
  weight : Nat
  links : List (Link Name Token)

structure Readings (Name Place Token : Type) where
  nodes : Array (Node Name Place Token)
  /-- The nodes where readings go on, in a certain order; nothing stands for a reading that has been
  given up. -/
  heads : Array (Option Nat)
  /-- The best complete reading, with its weight. -/
  complete : Option (List (Tree Name Token) × Nat)

structure Reader (Terminal Name Place Token : Type) where
  language : Language Terminal Name
  tables : Tables
  text : Text Place Token

namespace Reader

variable {Terminal Name Place Token : Type} (reader : Reader Terminal Name Place Token)

def agree (a b : Node Name Place Token) : Bool :=
  reader.text.offset a.place == reader.text.offset b.place && a.state.isSame b.state

def resembles (a b : Link Name Token) : Bool :=
  a.symbol == b.symbol && a.steps == b.steps

/-- Adds a link to a node. Where there is a link like it from the same node, the heavier one of the
two stays. Where there is one from a node that agrees with the link's own, the links of the two
nodes become one node's. `depth` bounds how far back nodes are made one. -/
def join : Nat → Nat → Link Name Token → Array (Node Name Place Token) →
    Array (Node Name Place Token)
  | 0, _, _, nodes => nodes
  | depth + 1, target, link, nodes =>
    match nodes[target]?, nodes[link.earlier]? with
    | some node, some before =>
      let weight := before.weight + link.weight
      let agreeing? := node.links.findIdx? fun other =>
        resembles other link && (other.earlier == link.earlier ||
          match nodes[other.earlier]? with
          | some otherBefore => reader.agree otherBefore before
          | none => false)
      match agreeing?.bind fun i => node.links[i]?.map (i, ·) with
      | none =>
        nodes.setIfInBounds target
          { node with links := node.links ++ [link], weight := max node.weight weight }
      | some (i, other) =>
        if other.earlier == link.earlier then
          if other.weight < link.weight then
            nodes.setIfInBounds target { node with links := node.links.set i link, weight }
          else nodes
        else
          let nodes := nodes.setIfInBounds target { node with weight := max node.weight weight }
          before.links.foldl (fun nodes more => join depth other.earlier more nodes) nodes
    | _, _ => nodes

def nodeAt? (readings : Readings Name Place Token) (head : Nat) :
    Option (Nat × Node Name Place Token) :=
  readings.heads[head]?.join.bind fun i => readings.nodes[i]?.map (i, ·)

def canMerge (readings : Readings Name Place Token) (a b : Nat) : Bool :=
  match nodeAt? readings a, nodeAt? readings b with
  | some (_, node), some (_, other) => reader.agree node other
  | _, _ => false

def merge (kept dropped : Nat) (readings : Readings Name Place Token) :
    Readings Name Place Token :=
  match readings.heads[kept]?.join, nodeAt? readings dropped with
  | some target, some (_, other) =>
    let depth := readings.nodes.size
    { readings with
      nodes := other.links.foldl (fun nodes link => reader.join depth target link nodes)
        readings.nodes
      heads := readings.heads.eraseIdxIfInBounds dropped }
  | _, _ => readings

def mergeBack (excepted dropped : Nat) (readings : Readings Name Place Token) :
    Readings Name Place Token :=
  match (List.range dropped).find? fun kept =>
      kept != excepted && reader.canMerge readings kept dropped with
  | some kept => reader.merge kept dropped readings
  | none => readings

/-- The ways back from a node over a number of links: where they lead, and what is read on them. -/
def waysBack (nodes : Array (Node Name Place Token)) :
    Nat → Nat → List (Nat × List (Tree Name Token) × Nat)
  | 0, from_ => [(from_, [], 0)]
  | count + 1, from_ =>
    match nodes[from_]? with
    | none => []
    | some node => node.links.flatMap fun link =>
      (waysBack nodes count link.earlier).map fun (origin, parts, weight) =>
        (origin, parts ++ link.parts, weight + link.weight)

/-- The better one of two readings of the same text: the heavier one, and of equally heavy ones the
one before the other. -/
def better (a b : List (Tree Name Token) × Nat) : List (Tree Name Token) × Nat :=
  if a.2 < b.2 then b
  else if b.2 < a.2 then a
  else if isBefore reader.language.number b.1 a.1 then b else a

def gather : List (Nat × List (Tree Name Token) × Nat) → List (Nat × List (Tree Name Token) × Nat)
    → List (Nat × List (Tree Name Token) × Nat)
  | [], found => found
  | (origin, reading) :: rest, found =>
    if found.any (·.1 == origin) then
      gather rest (found.map fun (other, best) =>
        if other == origin then (other, reader.better best reading) else (other, best))
    else gather rest (found ++ [(origin, reading)])

def partsOf (head : Nat) (parts : List (Tree Name Token)) : List (Tree Name Token) :=
  match reader.language.names[head]? with
  | none => parts
  | some name => if reader.language.isList name then parts else [.node name parts]

def finish (head node : Nat) (place : Place) (production : Production)
    (readings : Readings Name Place Token) : Readings Name Place Token :=
  let ways := reader.gather (waysBack readings.nodes production.steps.length node) []
  ways.foldl (fun readings (origin, parts, weight) =>
    match readings.nodes[origin]? with
    | none => readings
    | some before =>
      let weight := weight + production.weight
      let link : Link Name Token :=
        ⟨origin, .inr production.head, production.steps.length,
          reader.partsOf production.head parts, weight⟩
      let after : Node Name Place Token :=
        ⟨before.state.after reader.tables link.symbol, place, before.weight + weight, [link]⟩
      let count := readings.heads.size
      let place := readings.nodes.size
      let readings := { readings with
        nodes := readings.nodes.push after, heads := readings.heads.push (some place) }
      reader.mergeBack head count readings) readings

def giveUp (head : Nat) (readings : Readings Name Place Token) : Readings Name Place Token :=
  { readings with heads := readings.heads.setIfInBounds head none }

def accept (head : Nat) (node : Node Name Place Token) (readings : Readings Name Place Token) :
    Readings Name Place Token :=
  let found := node.links.foldl (fun found link =>
    match found with
    | none => some (link.parts, link.weight)
    | some best => some (reader.better best (link.parts, link.weight))) readings.complete
  giveUp head { readings with complete := some (found.getD ([], 0)) }

def isWhole (production : Production) : Bool :=
  production.head == reader.language.size

/-- Goes on at a head until it has taken the token, or has been given up. `rounds` bounds the number
of phrases that are finished before. -/
def take (head bit : Nat) (token : Option (Token × Place)) :
    Nat → Readings Name Place Token → Readings Name Place Token
  | 0, readings => giveUp head readings
  | rounds + 1, readings =>
    match nodeAt? readings head with
    | none => readings
    | some (i, node) =>
      let decision := node.state.decide reader.tables bit
      if decision.finished.any reader.isWhole then reader.accept head node readings
      else
        let (readings, last?) := decision.finished.foldl
          (fun (readings, last?) production =>
            let count := readings.heads.size
            let readings := reader.finish head i node.place production readings
            (readings, if count < readings.heads.size then some count else last?))
          (readings, (none : Option Nat))
        match decision.reads, token, last? with
        | true, some (token, place), _ =>
          let link : Link Name Token := ⟨i, .inl bit, 0, [.leaf token], 0⟩
          let weight := (readings.nodes[i]?.map (·.weight)).getD node.weight
          let after : Node Name Place Token :=
            ⟨node.state.after reader.tables link.symbol, place, weight, [link]⟩
          let place := readings.nodes.size
          { readings with
            nodes := readings.nodes.push after
            heads := readings.heads.setIfInBounds head (some place) }
        | _, _, some last =>
          let heads := readings.heads.setIfInBounds head (readings.heads[last]?.join)
          take head bit token rounds { readings with heads := heads.eraseIdxIfInBounds last }
        | _, _, none => giveUp head readings

def step (rounds head : Nat) (readings : Readings Name Place Token) :
    Readings Name Place Token :=
  match nodeAt? readings head with
  | none => readings
  | some (_, node) =>
    match reader.text.next node.state.admitted node.place with
    | .nothing => giveUp head readings
    | .endOfText => reader.take head endOfText none rounds readings
    | .token bit token place => reader.take head bit (some (token, place)) rounds readings

def reached? (readings : Readings Name Place Token) (head : Nat) : Option Nat :=
  (nodeAt? readings head).map fun (_, node) => reader.text.offset node.place

/-- Takes tokens at one head after the other, each of them until it has come as far as the ones
before it. `furthest` is how far they have come. -/
def advance : Nat → Nat → Nat → Readings Name Place Token → Readings Name Place Token × Nat
  | 0, _, furthest, readings => (readings, furthest)
  | rounds + 1, head, furthest, readings =>
    if head < readings.heads.size then
      match reader.reached? readings head with
      | none => advance rounds (head + 1) furthest readings
      | some _ =>
        let readings := reader.step rounds head readings
        match reader.reached? readings head with
        | none => advance rounds (head + 1) furthest readings
        | some reached =>
          if furthest < reached then advance rounds (head + 1) reached readings
          else if 0 < head && reached == furthest then advance rounds (head + 1) furthest readings
          else advance rounds head furthest readings
    else (readings, furthest)

def weightAt (readings : Readings Name Place Token) (head : Nat) : Nat :=
  ((nodeAt? readings head).map (·.2.weight)).getD 0

/-- Puts the reading at a head in order among the ones before it: merged with one that it agrees
with, or before the lighter ones. Tells whether it has been merged. -/
def settle (head : Nat) :
    List Nat → Readings Name Place Token → Readings Name Place Token × Bool
  | [], readings => (readings, false)
  | other :: rest, readings =>
    if reader.canMerge readings other head then (reader.merge other head readings, true)
    else if weightAt readings other < weightAt readings head then
      settle head rest { readings with heads := readings.heads.swapIfInBounds head other }
    else settle head rest readings

def settleAll : Nat → Nat → Readings Name Place Token → Readings Name Place Token
  | 0, _, readings => readings
  | rounds + 1, head, readings =>
    if head < readings.heads.size then
      let (readings, merged) := reader.settle head (List.range head) readings
      settleAll rounds (if merged then head else head + 1) readings
    else readings

def run : Nat → Nat → Readings Name Place Token → Readings Name Place Token × Nat
  | 0, furthest, readings => (readings, furthest)
  | rounds + 1, furthest, readings =>
    let (readings, furthest) := reader.advance rounds 0 furthest readings
    let readings := { readings with heads := readings.heads.filter (·.isSome) }
    if readings.complete.isSome || readings.heads.isEmpty then (readings, furthest)
    else run rounds furthest (reader.settleAll (2 * readings.heads.size) 0 readings)

def initial : State :=
  let production := reader.language.whole
  State.ofItems reader.tables [⟨production, 0, {}, production.steps, only endOfText⟩]

/-- Reads a text from a place on: the parts of the phrase that it is, or how far it can be read.
`rounds` bounds the number of tokens and phrases. -/
def read (rounds : Nat) (place : Place) : Except Nat (List (Tree Name Token)) :=
  let state := reader.initial
  match reader.text.next (state.admitted ||| only endOfText) place with
  | .endOfText => .ok []
  | _ =>
    let (readings, furthest) := reader.run rounds (reader.text.offset place)
      ⟨#[⟨state, place, 0, []⟩], #[some 0], none⟩
    match readings.complete with
    | some (trees, _) => .ok trees
    | none => .error furthest

end Reader

end CostWatch.Grammar

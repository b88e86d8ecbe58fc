/-!
Patterns of characters, and the longest beginning of a text that a pattern matches.

A pattern is a regular expression over classes of characters. It is matched one character at a time:
what has to follow after a character is again a pattern.
-/

set_option autoImplicit false

namespace CostWatch.Text

inductive Pattern where
  /-- No sequence. -/
  | never
  /-- The empty sequence. -/
  | empty
  /-- One character of a class. -/
  | one (member : Char → Bool)
  | followedBy (first second : Pattern)
  | either (first second : Pattern)
  /-- Any number of repetitions. -/
  | many (p : Pattern)

namespace Pattern

def matchesEmpty : Pattern → Bool
  | never => false
  | empty => true
  | one _ => false
  | followedBy p q => p.matchesEmpty && q.matchesEmpty
  | either p q => p.matchesEmpty || q.matchesEmpty
  | many _ => true

def isNever : Pattern → Bool
  | never => true
  | _ => false

/-- One pattern after the other, without the parts that match nothing or nothing but the empty
sequence. -/
def join : Pattern → Pattern → Pattern
  | never, _ => never
  | empty, q => q
  | p, q => followedBy p q

def union : Pattern → Pattern → Pattern
  | never, q => q
  | p, never => p
  | p, q => either p q

def after (c : Char) : Pattern → Pattern
  | never => never
  | empty => never
  | one member => if member c then empty else never
  | followedBy p q =>
    if p.matchesEmpty then union (join (p.after c) q) (q.after c) else join (p.after c) q
  | either p q => union (p.after c) (q.after c)
  | many p => join (p.after c) (many p)

/-- The length of the longest match, when `n` characters have been read and `best` is the length of
the longest match before them. -/
def longestFrom (p : Pattern) (cs : List Char) (n : Nat) (best : Option Nat) : Option Nat :=
  let best := if p.matchesEmpty then some n else best
  match cs with
  | [] => best
  | c :: rest =>
    let next := p.after c
    if next.isNever then best else longestFrom next rest (n + 1) best

def longest? (p : Pattern) (cs : List Char) : Option Nat :=
  p.longestFrom cs 0 none

def char (c : Char) : Pattern :=
  one (· == c)

def exactly : List Char → Pattern
  | [] => empty
  | [c] => char c
  | c :: rest => followedBy (char c) (exactly rest)

def text (s : String) : Pattern :=
  exactly s.toList

def inOrder : List Pattern → Pattern
  | [] => empty
  | [p] => p
  | p :: rest => followedBy p (inOrder rest)

def oneOf : List Pattern → Pattern
  | [] => never
  | [p] => p
  | p :: rest => either p (oneOf rest)

def optional (p : Pattern) : Pattern :=
  either p empty

def some (p : Pattern) : Pattern :=
  followedBy p (many p)

def separated (separator p : Pattern) : Pattern :=
  followedBy p (many (followedBy separator p))

end Pattern

end CostWatch.Text

import CostWatch.Text.Alphanumeric
import CostWatch.Text.WhiteSpace

/-!
The normal form of a method body: comments are left out, white space is left out except for one
blank between two characters of words, and literals are copied as they stand.

The body is read by an automaton, one character at a time.
-/

set_option autoImplicit false

namespace CostWatch.Normal

inductive Place where
  /-- Between tokens, or inside a token that is no literal. -/
  | code
  /-- After a slash that may begin a comment and is not written yet. -/
  | slash
  | lineComment
  /-- In a block comment; `star` tells whether the last character inside was a star. -/
  | blockComment (star : Bool)
  /-- After the double quote that begins a literal. -/
  | oneQuote
  /-- After two double quotes that begin a text block or are an empty literal. -/
  | twoQuotes
  /-- In a literal that ends with `quote`; `escaped` tells whether a backslash stands before. -/
  | literal (quote : Char) (escaped : Bool)
  /-- In a text block, after `quotes` double quotes in a row. -/
  | textBlock (quotes : Nat)
  deriving DecidableEq, Repr

/-- The state of the automaton: its place, whether white space or a comment was left out since the
last character written, and the characters written, last one first. -/
structure State where
  place : Place
  gap : Bool
  written : List Char
  deriving DecidableEq, Repr

def isWord (c : Char) : Bool :=
  Text.isAlphanumeric c || c == '_' || c == '$'

def endsInWord (written : List Char) : Bool :=
  match written with
  | c :: _ => isWord c
  | [] => false

namespace State

def start : State := ⟨.code, false, []⟩

/-- Writes a character of the code, after a blank if it would join two words otherwise. -/
def put (s : State) (c : Char) (next : Place) : State :=
  let blank := s.gap && isWord c && endsInWord s.written
  ⟨next, false, c :: if blank then ' ' :: s.written else s.written⟩

def copy (s : State) (c : Char) (next : Place) : State :=
  ⟨next, s.gap, c :: s.written⟩

def goTo (s : State) (next : Place) : State :=
  { s with place := next }

def leaveOut (s : State) : State :=
  ⟨.code, true, s.written⟩

def code (s : State) (c : Char) : State :=
  if c = '/' then s.goTo .slash
  else if Text.isWhiteSpace c then s.leaveOut
  else if c = '"' then s.put c .oneQuote
  else if c = '\'' then s.put c (.literal c false)
  else s.put c .code

def literal (s : State) (quote : Char) (escaped : Bool) (c : Char) : State :=
  if escaped then s.copy c (.literal quote false)
  else if c = '\\' then s.copy c (.literal quote true)
  else if c = quote then s.copy c .code
  else s.copy c (.literal quote false)

def step (s : State) (c : Char) : State :=
  match s.place with
  | .code => s.code c
  | .slash =>
    if c = '/' then s.goTo .lineComment
    else if c = '*' then s.goTo (.blockComment false)
    else (s.put '/' .code).code c
  | .lineComment => if c = '\n' then s.leaveOut else s
  | .blockComment star =>
    if star && c == '/' then s.leaveOut else s.goTo (.blockComment (c == '*'))
  | .oneQuote => if c = '"' then s.copy c .twoQuotes else s.literal '"' false c
  | .twoQuotes => if c = '"' then s.copy c (.textBlock 0) else (s.goTo .code).code c
  | .literal quote escaped => s.literal quote escaped c
  | .textBlock quotes =>
    if c = '"' then
      if quotes = 2 then s.copy c .code else s.copy c (.textBlock (quotes + 1))
    else s.copy c (.textBlock 0)

/-- Writes a slash that no comment followed. -/
def finish (s : State) : State :=
  match s.place with
  | .slash => s.put '/' .code
  | _ => s

end State

def scan (cs : List Char) : State :=
  cs.foldl State.step State.start

def normalizeList (body : List Char) : List Char :=
  (scan body).finish.written.reverse

def normalize (body : String) : String :=
  String.ofList (normalizeList body.toList)

end CostWatch.Normal

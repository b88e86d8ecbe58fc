import CostWatch.Source.Range

/-!
Declarations of methods in a text, and extractors that find them.
-/

set_option autoImplicit false

namespace CostWatch

/-- A part of a text, in bytes from its beginning; the end is excluded. -/
structure Span where
  start : Nat
  stop : Nat
  deriving DecidableEq, Repr

structure Declaration where
  name : String
  /-- The whole declaration. -/
  range : Range
  nameRange : Range
  /-- The body in the text it was found in; none for a method without body. -/
  body : Option Span
  deriving DecidableEq, Repr

def takeBytes (offset : Nat) (cs : List Char) (start : Nat) : List Char :=
  match cs with
  | [] => []
  | c :: rest => if offset ≤ start then [] else c :: takeBytes offset rest (start + c.utf8Size)

/-- A text cut behind its first `count` bytes; nothing if the text is shorter than that, or if the
cut would go through a character. -/
def cutBytes? (count : Nat) : List Char → Option (List Char × List Char)
  | [] => if count = 0 then some ([], []) else none
  | c :: rest =>
    if count = 0 then some ([], c :: rest)
    else if c.utf8Size ≤ count then
      (cutBytes? (count - c.utf8Size) rest).map fun (front, back) => (c :: front, back)
    else none

def Span.text? (span : Span) (text : String) : Option String :=
  if span.start ≤ span.stop then do
    let (_, back) ← cutBytes? span.start text.toList
    let (part, _) ← cutBytes? (span.stop - span.start) back
    some (String.ofList part)
  else none

def Declaration.bodyText (d : Declaration) (text : String) : Option String :=
  d.body.bind fun span => span.text? text

inductive ExtractFault where
  | language (reason : String)
  | noTree
  /-- The text does not parse from a certain line and byte of the line on. -/
  | syntaxError (line column : Nat)
  deriving DecidableEq, Repr

def ExtractFault.message : ExtractFault → String
  | .language reason => "parser language error: " ++ reason
  | .noTree => "parser produced no syntax tree"
  | .syntaxError line column => s!"syntax error at line {line}, column {column}"

/-- A way of finding the declarations of a text, in the order in which they begin. -/
abbrev Extractor := String → Except ExtractFault (List Declaration)

end CostWatch

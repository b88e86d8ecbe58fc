import CostWatch.Java.Grammar
import CostWatch.Java.Token
import CostWatch.Source.Declaration

/-!
Declarations in Java texts.

The methods and constructors of a text are found by a walk over its trees that comes to a
declaration before the ones inside it. Constructors are declared under the name that the analyzer
gives them.
-/

set_option autoImplicit false

namespace CostWatch.Java

open Grammar

abbrev JavaTree := Tree Part Token

/-! Parts of a tree -/

def partsNamed? (names : List Part) : List JavaTree → Option (List JavaTree)
  | [] => none
  | .leaf _ :: rest => partsNamed? names rest
  | .node name parts :: rest => if names.contains name then some parts else partsNamed? names rest

def tokenAmong? : List JavaTree → Option Token
  | [] => none
  | .leaf token :: _ => some token
  | .node _ _ :: rest => tokenAmong? rest

def declaredName? (name : Part) (parts : List JavaTree) : Option Token :=
  match name with
  | .method => do firstOf? (← partsNamed? [.methodHead] (← partsNamed? [.methodHeader] parts))
  | .constructor => do tokenAmong? (← partsNamed? [.constructorHead] parts)
  | .compactConstructor => tokenAmong? parts
  | _ => none

/-! Ranges -/

def Mark.point (mark : Mark) : Point :=
  ⟨UInt32.ofNat mark.line, UInt32.ofNat mark.column⟩

def rangeOf (first last : Token) : Range :=
  ⟨first.start.point, last.stop.point⟩

def spanOf? (parts : List JavaTree) : Option Span := do
  some ⟨(← firstOf? parts).start.byte, (← lastOf? parts).stop.byte⟩

/-! Declarations -/

def declaration? (name : Part) (parts : List JavaTree) : Option Declaration := do
  let called ← declaredName? name parts
  some {
    name := if name == .method then called.text else constructorName
    range := rangeOf (← firstOf? parts) (← lastOf? parts)
    nameRange := rangeOf called called
    body := (partsNamed? [.block, .constructorBody] parts).bind spanOf? }

mutual

def Tree.declarations : JavaTree → List Declaration
  | .leaf _ => []
  | .node name parts => (declaration? name parts).toList ++ declarationsOf parts

def declarationsOf : List JavaTree → List Declaration
  | [] => []
  | tree :: rest => Tree.declarations tree ++ declarationsOf rest

end

/-! Extraction -/

def reader (length : Nat) : Reader Terminal Part Place Token where
  language
  tables
  text := { next := next (length + 1), offset := (·.mark.byte) }

/-- The trees of a text, or how far it was read when it has a syntax error. A parser that recovers
from errors may report another place: where the first part begins that it found no place for in a
tree. -/
def parse (text : String) : Except Mark (List JavaTree) :=
  let place := beginning text
  let length := place.rest.length
  ((reader length).read (1000 * (length + 1)) place).mapError fun byte =>
    place.mark.after (takeBytes byte place.rest place.mark.byte)

/-- The declarations of a text, given its trees; none at all when the text does not parse. -/
def extractBy (parse : String → Except Mark (List JavaTree)) : Extractor := fun text =>
  match parse text with
  | .error mark => .error (.syntaxError mark.line mark.column)
  | .ok trees => .ok (declarationsOf trees)

def extract : Extractor :=
  extractBy parse

end CostWatch.Java

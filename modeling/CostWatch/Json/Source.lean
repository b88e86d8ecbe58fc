import CostWatch.Text.Utf8

/-!
A JSON text while it is read: the symbols that are left, the position reached, and how many more
arrays and objects may be opened.

A position is a line, counted from one, and the number of bytes read of that line.
-/

set_option autoImplicit false

namespace CostWatch.Json

/-- An element of a JSON text: a character, or a byte that belongs to no character. -/
inductive Symbol where
  | char (c : Char)
  | stray (b : UInt8)
  deriving DecidableEq

def Symbol.width : Symbol → Nat
  | .char c => c.utf8Size
  | .stray _ => 1

def symbolsOfText (s : String) : List Symbol :=
  s.toList.map .char

def symbolsOfBytes (bytes : List UInt8) : List Symbol :=
  (Text.Utf8.pieces bytes).flatMap fun
    | .char c => [.char c]
    | .broken bad => bad.map .stray
    | .unfinished bad => bad.map .stray

structure Position where
  line : Nat
  column : Nat
  deriving DecidableEq, Repr

def Position.after (p : Position) (s : Symbol) : Position :=
  match s with
  | .char '\n' => ⟨p.line + 1, 0⟩
  | s => ⟨p.line, p.column + s.width⟩

/-- The position one byte further, or the same position at the end of the text. -/
def Position.next (p : Position) (rest : List Symbol) : Position :=
  match rest with
  | [] => p
  | .char '\n' :: _ => ⟨p.line + 1, 0⟩
  | _ :: _ => ⟨p.line, p.column + 1⟩

/-- The position `count` bytes further; nothing if the text has fewer. -/
def Position.skip? (p : Position) (count : Nat) : List Symbol → Option Position
  | [] => if count = 0 then some p else none
  | s :: rest =>
    if count = 0 then some p
    else if s.width ≤ count then (p.after s).skip? (count - s.width) rest
    else some ⟨p.line, p.column + count⟩

structure Cursor where
  rest : List Symbol
  position : Position
  /-- One more than the number of arrays and objects that may still be opened here. -/
  depth : Nat
  /-- The number of symbols that are left, kept so that it need not be counted at every token. -/
  left : Nat
  left_eq : left = rest.length

def maxDepth : Nat := 128

def Cursor.start (symbols : List Symbol) : Cursor :=
  ⟨symbols, ⟨1, 0⟩, maxDepth, symbols.length, rfl⟩

namespace Cursor

/-- A number of steps that no walk over the remaining symbols exceeds. -/
def steps (c : Cursor) : Nat := c.left + 1

theorem steps_eq (c : Cursor) : c.steps = c.rest.length + 1 := by
  rw [steps, c.left_eq]

def advance : Cursor → Cursor
  | ⟨[], p, depth, left, h⟩ => ⟨[], p, depth, left, h⟩
  | ⟨s :: rest, p, depth, left, h⟩ => ⟨rest, p.after s, depth, left - 1, by simp [h]⟩

/-- The position of the next byte's end, where a fault of the next symbol is reported. -/
def ahead (c : Cursor) : Position :=
  c.position.next c.rest

def finish (c : Cursor) : Position :=
  c.rest.foldl Position.after c.position

def atEnd (c : Cursor) : Bool :=
  c.rest.isEmpty

def isBlank (c : Char) : Bool :=
  c == ' ' || c == '\n' || c == '\t' || c == '\r'

def dropBlanksFrom (depth : Nat) :
    (rest : List Symbol) → Position → (left : Nat) → left = rest.length → Cursor
  | .char ch :: rest, p, left, h =>
    if isBlank ch then dropBlanksFrom depth rest (p.after (.char ch)) (left - 1) (by simp [h])
    else ⟨.char ch :: rest, p, depth, left, h⟩
  | rest, p, left, h => ⟨rest, p, depth, left, h⟩

def dropBlanks (c : Cursor) : Cursor :=
  dropBlanksFrom c.depth c.rest c.position c.left c.left_eq

end Cursor

end CostWatch.Json

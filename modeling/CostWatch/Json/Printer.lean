import CostWatch.Json.Value
import CostWatch.Text.Quoted

/-!
Writing JSON: compact, on one line, or indented by two blanks for every array and object around a
line. Strings are escaped where the format requires it and nowhere else.
-/

set_option autoImplicit false

namespace CostWatch.Json

def hexDigit (n : Nat) : Char :=
  Nat.digitChar n

def escapeChar (c : Char) : List Char :=
  match c with
  | '"' => ['\\', '"']
  | '\\' => ['\\', '\\']
  | '\x08' => ['\\', 'b']
  | '\x0c' => ['\\', 'f']
  | '\n' => ['\\', 'n']
  | '\r' => ['\\', 'r']
  | '\t' => ['\\', 't']
  | c =>
    if c.toNat < 0x20 then ['\\', 'u', '0', '0', hexDigit (c.toNat / 16), hexDigit (c.toNat % 16)]
    else [c]

def printString (s : String) : List Char :=
  '"' :: s.toList.flatMap escapeChar ++ ['"']

def lineBreak (indent : Nat) : List Char :=
  '\n' :: List.replicate (2 * indent) ' '

def printLines (indent : Nat) : List (List Char) → List Char
  | [] => []
  | [item] => lineBreak indent ++ item
  | item :: rest => lineBreak indent ++ item ++ ',' :: printLines indent rest

def printRow : List (List Char) → List Char
  | [] => []
  | [item] => item
  | item :: rest => item ++ ',' :: printRow rest

namespace Value

mutual

def print : Value → List Char
  | .null => ['n', 'u', 'l', 'l']
  | .boolean b => if b then ['t', 'r', 'u', 'e'] else ['f', 'a', 'l', 's', 'e']
  | .number n => n.shown.toList
  | .text s => printString s
  | .array items => '[' :: printRow (printItems items) ++ [']']
  | .object entries => '\x7b' :: printRow (printEntries entries) ++ ['\x7d']

def printItems : List Value → List (List Char)
  | [] => []
  | v :: rest => v.print :: printItems rest

def printEntries : List (String × Value) → List (List Char)
  | [] => []
  | (key, v) :: rest => (printString key ++ ':' :: v.print) :: printEntries rest

end

mutual

/-- The indented form of a value that begins on a line with the given indentation. -/
def pretty (indent : Nat) : Value → List Char
  | .array [] => ['[', ']']
  | .array items => '[' :: printLines (indent + 1) (prettyItems (indent + 1) items) ++
      lineBreak indent ++ [']']
  | .object [] => ['\x7b', '\x7d']
  | .object entries => '\x7b' :: printLines (indent + 1) (prettyEntries (indent + 1) entries) ++
      lineBreak indent ++ ['\x7d']
  | .null => ['n', 'u', 'l', 'l']
  | .boolean b => if b then ['t', 'r', 'u', 'e'] else ['f', 'a', 'l', 's', 'e']
  | .number n => n.shown.toList
  | .text s => printString s

def prettyItems (indent : Nat) : List Value → List (List Char)
  | [] => []
  | v :: rest => v.pretty indent :: prettyItems indent rest

def prettyEntries (indent : Nat) : List (String × Value) → List (List Char)
  | [] => []
  | (key, v) :: rest =>
    (printString key ++ ':' :: ' ' :: v.pretty indent) :: prettyEntries indent rest

end

def compact (v : Value) : String :=
  String.ofList v.print

def indented (v : Value) : String :=
  String.ofList (v.pretty 0)

end Value

end CostWatch.Json

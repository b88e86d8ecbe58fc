import CostWatch.Grammar.Reading
import CostWatch.Java.Terminal
import CostWatch.Text.Identifier
import CostWatch.Text.Pattern

/-!
Tokens of Java.

A token is looked for where it is needed: of the terminals that are admitted at a place the one with
the longest lexeme is read. Two closing angle brackets are therefore two tokens where only one is
admitted, and a word is a keyword only where that keyword is. White space and comments before a
token are skipped. Inside a text in quotes all characters count, and an expression between `\{` and
`}` may stand among them.
-/

set_option autoImplicit false

namespace CostWatch.Java

open Text Grammar

/-- A place in a text: how many bytes are before it, how many lines, and how many bytes of its own
line. -/
structure Mark where
  byte : Nat
  line : Nat
  column : Nat
  deriving DecidableEq, Repr

/-- The place after one more character. A line ends with a line feed and nothing else. -/
def Mark.next (mark : Mark) (c : Char) : Mark :=
  if c == '\n' then ⟨mark.byte + c.utf8Size, mark.line + 1, 0⟩
  else ⟨mark.byte + c.utf8Size, mark.line, mark.column + c.utf8Size⟩

def Mark.after (mark : Mark) (cs : List Char) : Mark :=
  cs.foldl Mark.next mark

structure Token where
  text : String
  start : Mark
  stop : Mark
  deriving DecidableEq, Repr

structure Place where
  mark : Mark
  rest : List Char

def Place.after (place : Place) (count : Nat) : Place :=
  ⟨place.mark.after (place.rest.take count), place.rest.drop count⟩

namespace Lexeme

open Pattern

def other (member : Char → Bool) : Pattern :=
  one fun c => c != '\x00' && member c

def digit : Pattern := one Char.isDigit

def hexDigit : Pattern :=
  one fun c => c.isDigit || ('a' ≤ c && c ≤ 'f') || ('A' ≤ c && c ≤ 'F')

def octalDigit : Pattern := one fun c => '0' ≤ c && c ≤ '7'

def among (cs : List Char) : Pattern := one cs.contains

def naturalDigits : Pattern :=
  oneOf [char '0', inOrder [one fun c => '1' ≤ c && c ≤ '9',
    optional (inOrder [optional (char '_'), separated (some (char '_')) (some digit)])]]

def grouped (digit : Pattern) : Pattern :=
  separated (char '_') (some digit)

def exponent : Pattern :=
  inOrder [among ['e', 'E'], optional (among ['-', '+']), grouped digit]

def floatSuffix : Pattern := among ['f', 'F', 'd', 'D']

def longSuffix : Pattern := optional (among ['l', 'L'])

def hexMark : Pattern := oneOf [text "0x", text "0X"]

def number : Pattern :=
  oneOf [
    inOrder [naturalDigits, longSuffix],
    inOrder [hexMark, grouped hexDigit, longSuffix],
    inOrder [oneOf [text "0o", text "0O", char '0'], grouped octalDigit, longSuffix],
    inOrder [oneOf [text "0b", text "0B"], grouped (among ['0', '1']), longSuffix],
    inOrder [grouped digit, char '.', optional (grouped digit), optional exponent,
      optional floatSuffix],
    inOrder [char '.', grouped digit, optional exponent, optional floatSuffix],
    inOrder [naturalDigits, exponent, optional floatSuffix],
    inOrder [naturalDigits, optional exponent, floatSuffix],
    inOrder [hexMark,
      oneOf [inOrder [grouped hexDigit, optional (char '.')],
        inOrder [optional (grouped hexDigit), char '.', grouped hexDigit]],
      optional (inOrder [among ['p', 'P'], optional (among ['-', '+']), naturalDigits,
        optional floatSuffix])]]

/-- A character between apostrophes; the pattern admits more than one. -/
def character : Pattern :=
  inOrder [char '\'',
    some (oneOf [other fun c => c != '\\' && c != '\'' && c != '\n',
      inOrder [char '\\', other fun _ => true]]),
    char '\'']

def word : Pattern :=
  inOrder [one fun c => isXidStart c || c == '_' || c == '$',
    many (one fun c => isXidContinue c || c == '¢' || c == '_' || c == '$')]

/-- White space is the white space of ASCII. -/
def isSpace (c : Char) : Bool :=
  c == ' ' || ('\t' ≤ c && c ≤ '\r')

def lineComment : Pattern :=
  inOrder [text "//", many (other (· != '\n'))]

def blockComment : Pattern :=
  inOrder [text "/*",
    many (oneOf [other (· != '*'),
      inOrder [some (char '*'), other fun c => c != '*' && c != '/']]),
    some (char '*'), char '/']

def comment : Pattern := oneOf [lineComment, blockComment]

def spacedComment : Pattern := inOrder [many (one isSpace), comment]

def escape : Pattern :=
  inOrder [char '\\', oneOf [
    other fun c => c != 'x' && c != 'u' && !('0' ≤ c && c ≤ '7'),
    inOrder [octalDigit, optional octalDigit, optional octalDigit],
    inOrder [char 'x', hexDigit, hexDigit],
    inOrder [char 'u', hexDigit, hexDigit, hexDigit, hexDigit],
    inOrder [text "u\x7b", some hexDigit, char '}']]]

def plain : Pattern := some (other fun c => c != '"' && c != '\\')

def quoted : Pattern :=
  inOrder [char '"', many (oneOf [other fun c => c != '"' && c != '\\', text "\\\""])]

def anyEscape : Pattern := inOrder [char '\\', other fun _ => true]

end Lexeme

/-! What comes next -/

/-- The longest one of the lexemes that are found; the first of several that are equally long. -/
def longest? : List (Nat × Nat) → Option (Nat × Nat)
  | [] => none
  | (bit, n) :: rest =>
    match longest? rest with
    | none => some (bit, n)
    | some (other, m) => if n < m then some (other, m) else some (bit, n)

def beginsWith : List Char → List Char → Bool
  | [], _ => true
  | _ :: _, [] => false
  | a :: as, b :: bs => a == b && beginsWith as bs

def Terminal.bit (terminal : Terminal) : Nat :=
  bitOf terminal.number

def wordBits : List (String × Nat) :=
  Terminal.words.map fun text => (text, Terminal.bit (.word text))

def symbolBits : List (List Char × Nat) :=
  Terminal.symbols.map fun text => (text.toList, Terminal.bit (.symbol text))

def nameBit : Nat := Terminal.bit .name

def literalBit : Nat := Terminal.bit .literal

def lineTextBit : Nat := Terminal.bit .lineText

def blockTextBit : Nat := Terminal.bit .blockText

abbrev Found := Nat × Nat

def symbolsAt (admitted : Terminals) (cs : List Char) : List Found :=
  symbolBits.filterMap fun (spelling, bit) =>
    if beginsWith spelling cs && admitted.testBit bit then some (bit, spelling.length) else none

/-- What a word is: a keyword where that is admitted, and otherwise a name. -/
def wordBit (admitted : Terminals) (text : String) : Nat :=
  match wordBits.lookup text with
  | some bit => if admitted.testBit bit then bit else nameBit
  | none => nameBit

def matching (admitted : Terminals) (bit : Nat) (cs : List Char) (patterns : List Pattern) :
    List Found :=
  if admitted.testBit bit then patterns.filterMap fun p => (p.longest? cs).map (bit, ·) else []

def wordAt (admitted : Terminals) (cs : List Char) : List Found :=
  match Lexeme.word.longest? cs with
  | none => []
  | some n =>
    let bit := wordBit admitted (String.ofList (cs.take n))
    if admitted.testBit bit then [(bit, n)] else []

def skipBlanks : Nat → Place → Place
  | 0, place => place
  | rounds + 1, place =>
    let place := place.after (place.rest.takeWhile Lexeme.isSpace).length
    match Lexeme.comment.longest? place.rest with
    | none => place
    | some n => skipBlanks rounds (place.after n)

def tokenOf (place : Place) (found : List Found) : Next Place Token :=
  match longest? found with
  | none => .nothing
  | some (bit, n) =>
    let after := place.after n
    .token bit ⟨String.ofList (place.rest.take n), place.mark, after.mark⟩ after

def nextInLine (admitted : Terminals) (place : Place) : Next Place Token :=
  tokenOf place (symbolsAt admitted place.rest ++
    matching admitted lineTextBit place.rest [Lexeme.plain, Lexeme.escape])

/-- What comes next in a text between triple quotation marks. Comments are skipped there where they
are at least as long as anything else. `rounds` bounds how many of them there are. -/
def nextInBlock (admitted : Terminals) : Nat → Place → Next Place Token
  | 0, _ => .nothing
  | rounds + 1, place =>
    let found := symbolsAt admitted place.rest ++ matching admitted blockTextBit place.rest
      [Lexeme.plain, Lexeme.quoted, Lexeme.escape, Lexeme.anyEscape]
    match Lexeme.spacedComment.longest? place.rest with
    | none => tokenOf place found
    | some n =>
      if found.all (·.2 ≤ n) then nextInBlock admitted rounds (place.after n)
      else tokenOf place found

def nextInCode (rounds : Nat) (admitted : Terminals) (place : Place) : Next Place Token :=
  let place := skipBlanks rounds place
  if place.rest.isEmpty then .endOfText
  else tokenOf place (wordAt admitted place.rest ++
    matching admitted literalBit place.rest [Lexeme.number, Lexeme.character] ++
    symbolsAt admitted place.rest)

/-- What comes next where certain terminals are admitted. `rounds` bounds how many comments are
skipped. -/
def next (rounds : Nat) (admitted : Terminals) (place : Place) : Next Place Token :=
  if admitted.testBit lineTextBit then nextInLine admitted place
  else if admitted.testBit blockTextBit then nextInBlock admitted rounds place
  else nextInCode rounds admitted place

/-- The beginning of a text. A byte order mark there is skipped. -/
def beginning (text : String) : Place :=
  match text.toList with
  | '\uFEFF' :: cs => ⟨Mark.next ⟨0, 0, 0⟩ '\uFEFF', cs⟩
  | cs => ⟨⟨0, 0, 0⟩, cs⟩

end CostWatch.Java

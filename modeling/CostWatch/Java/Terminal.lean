/-!
Terminals of Java: what the tokens of a text are to its grammar.

A word is a keyword where its state admits the keyword, and a name everywhere else.
-/

set_option autoImplicit false

namespace CostWatch.Java

inductive Terminal where
  /-- A keyword. -/
  | word (text : String)
  /-- An operator, a separator or a quote. -/
  | symbol (text : String)
  | name
  /-- A number or a character in quotes. -/
  | literal
  /-- Characters of a text between single quotation marks. -/
  | lineText
  /-- Characters of a text between triple quotation marks. -/
  | blockText
  /-- What no token is. -/
  | unreadable
  deriving DecidableEq, Repr

namespace Terminal

def words : List String :=
  ["_", "abstract", "assert", "boolean", "break", "byte", "case", "catch", "char", "class",
   "continue", "default", "do", "double", "else", "enum", "exports", "extends", "false", "final",
   "finally", "float", "for", "if", "implements", "import", "instanceof", "int", "interface",
   "long", "module", "native", "new", "null", "open", "opens", "package", "permits", "private",
   "protected", "provides", "public", "record", "requires", "return", "sealed", "short", "static",
   "strictfp", "super", "switch", "synchronized", "this", "throw", "throws", "to", "transient",
   "transitive", "true", "try", "uses", "void", "volatile", "when", "while", "with", "yield"]

def symbols : List String :=
  ["(", ")", "\x7b", "\x7d", "[", "]", ";", ",", ".", "...", "@", "@interface", "::", "->", "=",
   ">", "<", "!", "~", "?", ":", "==", "<=", ">=", "!=", "&&", "||", "++", "--", "+", "-", "*", "/",
   "&", "|", "^", "%", "<<", ">>", ">>>", "+=", "-=", "*=", "/=", "&=", "|=", "^=", "%=", "<<=",
   ">>=", ">>>=", "\"", "\"\"\"", "\\\x7b", "non-sealed"]

def all : List Terminal :=
  [.name, .literal, .lineText, .blockText, .unreadable] ++ words.map .word ++ symbols.map .symbol

def number (terminal : Terminal) : Nat :=
  all.idxOf terminal

end Terminal

end CostWatch.Java

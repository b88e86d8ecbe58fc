import CostWatch.Text.Quoted
import CostWatch.Text.WhiteSpace

/-!
Splitting a command into words.

White space separates words. A single-quoted text stands for itself; in a double-quoted text a
backslash escapes a quote or a backslash and is kept before anything else; outside quotes a
backslash stands before a character that is taken as it is. Adjacent pieces make one word.
-/

set_option autoImplicit false

namespace CostWatch.Command

inductive SplitFault where
  | openSingleQuote
  | openDoubleQuote
  | trailingBackslash
  | noWord
  deriving DecidableEq, Repr

def SplitFault.message (command : String) : SplitFault → String
  | .openSingleQuote => "build command " ++ Text.quote command ++ ": unbalanced single quote"
  | .openDoubleQuote => "build command " ++ Text.quote command ++ ": unbalanced double quote"
  | .trailingBackslash => "build command " ++ Text.quote command ++ ": trailing backslash"
  | .noWord => "build command must not be empty"

inductive Quoting where
  | none
  | single
  | double
  deriving DecidableEq

/-- The words of the rest of a command, `word` being the word begun before it, if there is one. -/
def wordsFrom : Quoting → Option (List Char) → List Char → Except SplitFault (List (List Char))
  | .none, word, [] => .ok word.toList
  | .single, _, [] => .error .openSingleQuote
  | .double, _, [] => .error .openDoubleQuote
  | .none, word, c :: rest =>
    if Text.isWhiteSpace c then (wordsFrom .none none rest).map (word.toList ++ ·)
    else if c = '\'' then wordsFrom .single (some (word.getD [])) rest
    else if c = '"' then wordsFrom .double (some (word.getD [])) rest
    else if c = '\\' then
      match rest with
      | [] => .error .trailingBackslash
      | d :: rest => wordsFrom .none (some (word.getD [] ++ [d])) rest
    else wordsFrom .none (some (word.getD [] ++ [c])) rest
  | .single, word, c :: rest =>
    if c = '\'' then wordsFrom .none word rest
    else wordsFrom .single (some (word.getD [] ++ [c])) rest
  | .double, word, c :: rest =>
    if c = '"' then wordsFrom .none word rest
    else if c = '\\' then
      match rest with
      | [] => .error .openDoubleQuote
      | d :: rest =>
        if d = '"' ∨ d = '\\' then wordsFrom .double (some (word.getD [] ++ [d])) rest
        else wordsFrom .double (some (word.getD [] ++ [c, d])) rest
    else wordsFrom .double (some (word.getD [] ++ [c])) rest

/-- The words of a command; there is at least one. -/
def split (command : String) : Except SplitFault (List String) :=
  match wordsFrom .none none command.toList with
  | .error fault => .error fault
  | .ok [] => .error .noWord
  | .ok words => .ok (words.map String.ofList)

end CostWatch.Command

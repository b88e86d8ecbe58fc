import CostWatch.Cost.History

/-!
Pages: the overview of the costs of a document, and the history of a method.

A page is a list of pieces, each of them either markup of the page or text to be shown. Only text
comes from records, and only text is escaped, so the tags of a page do not depend on what is shown.
-/

set_option autoImplicit false

namespace CostWatch.Page

inductive Piece where
  | markup (s : String)
  | text (s : String)

def escapeChar (c : Char) : List Char :=
  match c with
  | '&' => ['&', 'a', 'm', 'p', ';']
  | '<' => ['&', 'l', 't', ';']
  | '>' => ['&', 'g', 't', ';']
  | '"' => ['&', 'q', 'u', 'o', 't', ';']
  | '\'' => ['&', '#', '3', '9', ';']
  | c => [c]

def escapeList (cs : List Char) : List Char :=
  cs.flatMap escapeChar

def escape (s : String) : String :=
  String.ofList (escapeList s.toList)

def Piece.render : Piece → List Char
  | .markup s => s.toList
  | .text s => escapeList s.toList

def render (pieces : List Piece) : String :=
  String.ofList (pieces.flatMap Piece.render)

def overviewTitle : String := "Cost Overview"

def historyTitle : String := "Cost History"

def selectedStyle : String :=
  ".selected-method \x7b\n  background-color: rgba(200, 200, 0, 0.2);\n\x7d"

def page (title : String) (style : List Piece) (heading body : List Piece) : List Piece :=
  .markup ("<!DOCTYPE html>\n<html lang=\"en\">\n<head>\n  <meta charset=\"UTF-8\">\n  " ++
    "<meta name=\"viewport\" content=\"width=device-width, initial-scale=1.0\">\n  " ++
    "<title>" ++ title ++ "</title>\n") ::
  style ++ .markup "</head>\n<body>\n  <h1>" :: heading ++
  .markup "</h1>\n  <div>\n    <hr>\n" :: body ++ [.markup "  </div>\n</body>\n</html>\n"]

def number (n : Nat) : Piece := .text (toString n)

def costLines (r : Record) : List Piece :=
  [.markup "<div>Allocation cost: ", .text r.allocation.polynomial, .markup " : ",
    .text r.allocation.bigO, .markup "</div>\n<div>Execution cost: ",
    .text r.execution.polynomial, .markup " : ", .text r.execution.bigO, .markup "</div>\n"]

def overviewBlock (selected : Bool) (r : Record) : List Piece :=
  .markup (if selected then "<div class=\"selected-method\">\n<h2>" else "<div>\n<h2>") ::
  .text r.method :: .markup " (line " :: number r.location.line.toNat :: .markup ")</h2>\n" ::
  costLines r ++ [.markup "</div>\n<hr>\n"]

def overview (records : List Record) (selected : Option String) (hideInitializers : Bool) :
    List Piece :=
  let visible := records.filter fun r => !(hideInitializers && r.isInitializer)
  page overviewTitle [.markup ("  <style>\n" ++ selectedStyle ++ "\n  </style>\n")]
    [.markup overviewTitle]
    (visible.flatMap fun r => overviewBlock (selected == some r.method) r)

def historyBlock (latest : Bool) (r : Record) : List Piece :=
  .markup "<div>\n<h2>" :: .text (r.timestamp.getD "unknown time") ::
  .markup (if latest then " (most recent)</h2>\n" else "</h2>\n") ::
  costLines r ++ [.markup "</div>\n<hr>\n"]

/-- The page of a history; none if it is empty. -/
def history? : History → Option (List Piece)
  | [] => none
  | latest :: older =>
    some (page historyTitle []
      [.markup (historyTitle ++ " for: "), .text latest.method, .markup " (line ",
        number latest.location.line.toNat, .markup ")"]
      (historyBlock true latest ++ older.flatMap (historyBlock false)))

end CostWatch.Page

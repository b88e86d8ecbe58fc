import CostWatch.Failure
import CostWatch.Json.Printer
import CostWatch.Json.Tagged
import CostWatch.Source.Range

/-!
Events for the editor: JSON objects in which the entry `event` tells what happened. They are sent
one to a line.
-/

set_option autoImplicit false

namespace CostWatch

inductive Level where
  | info
  | warning
  | error
  deriving DecidableEq, Repr

inductive Panel where
  | overview
  | history
  deriving DecidableEq, Repr

structure Decoration where
  method : MethodId
  name : String
  range : Range
  nameRange : Range
  hover : String
  expensive : Bool
  deriving DecidableEq, Repr

inductive Event where
  | notice (level : Level) (message : String)
  /-- Replaces what is shown in a document; `stale` if it was edited since its analysis. -/
  | decorations (document : Document) (stale : Bool) (items : List Decoration)
  /-- Opens a panel or replaces its page. -/
  | panel (kind : Panel) (title html : String)
  /-- Work begins or ends. -/
  | progress (active : Bool) (title : String)
  /-- Nothing is shown any more, and the panels are closed. -/
  | cleared (panels : List Panel)
  deriving DecidableEq, Repr

open Json

namespace Level

def names : List String := ["info", "warning", "error"]

def name : Level → String
  | .info => "info"
  | .warning => "warning"
  | .error => "error"

/-- The level with a name; an error for any other text. -/
def ofName (name : String) : Level :=
  if name = "info" then .info else if name = "warning" then .warning else .error

end Level

namespace Panel

def names : List String := ["overview", "history"]

def name : Panel → String
  | .overview => "overview"
  | .history => "history"

/-- The panel with a name; the history for any other text. -/
def ofName (name : String) : Panel :=
  if name = "overview" then .overview else .history

end Panel

namespace Decoration

def schema : Schema :=
  .record "struct Decoration"
    (.cons "method_id" .required .string <|
      .cons "method_name" .required .string <|
      .cons "declaration_range" .required Range.schema <|
      .cons "name_range" .required Range.schema <|
      .cons "hover" .required .string <|
      .cons "expensive" .required .boolean .nil)

def ofData : schema.Data → Decoration
  | (method, name, range, nameRange, hover, expensive, ()) =>
    ⟨⟨method⟩, name, .ofData range, .ofData nameRange, hover, expensive⟩

def data (d : Decoration) : schema.Data :=
  (d.method.key, d.name, d.range.data, d.nameRange.data, d.hover, d.expensive, ())

end Decoration

namespace Event

def info (message : String) : Event := .notice .info message

def warning (message : String) : Event := .notice .warning message

def levelOf : Failure → Level
  | .notApplicable _ => .info
  | .busy => .info
  | .invalidInput _ => .warning
  | _ => .error

def ofFailure (f : Failure) : Event :=
  .notice (levelOf f) f.message

def noticeFields : Fields :=
  .cons "level" .required (.name Level.names) <| .cons "message" .required .string .nil

def decorationsFields : Fields :=
  .cons "document" .required .string <|
    .cons "stale" .required .boolean <|
    .cons "items" .required (.list Decoration.schema) .nil

def panelFields : Fields :=
  .cons "kind" .required (.name Panel.names) <|
    .cons "title" .required .string <|
    .cons "html" .required .string .nil

def progressFields : Fields :=
  .cons "active" .required .boolean <| .cons "title" .required .string .nil

def clearedFields : Fields :=
  .cons "panels" .required (.list (.name Panel.names)) .nil

/-- What an array with the fields of an event is expected to be. -/
def wording (variant : String) : String :=
  "struct variant Event::" ++ variant

def union : Tagged Event where
  tag := "event"
  wording := "internally tagged enum Event"
  variants :=
    [⟨"notice", wording "Notice", noticeFields,
        fun (level, message, ()) => .notice (.ofName level) message⟩,
      ⟨"decorations", wording "Decorations", decorationsFields,
        fun (document, stale, items, ()) =>
          .decorations ⟨document⟩ stale (List.map Decoration.ofData items)⟩,
      ⟨"panel", wording "Panel", panelFields,
        fun (kind, title, html, ()) => .panel (.ofName kind) title html⟩,
      ⟨"progress", wording "Progress", progressFields,
        fun (active, title, ()) => .progress active title⟩,
      ⟨"cleared", wording "Cleared", clearedFields,
        fun (panels, ()) => .cleared (List.map Panel.ofName panels)⟩]

def name : Event → String
  | .notice _ _ => "notice"
  | .decorations _ _ _ => "decorations"
  | .panel _ _ _ => "panel"
  | .progress _ _ => "progress"
  | .cleared _ => "cleared"

def entries : Event → List (String × Value)
  | .notice level message => noticeFields.write (level.name, message, ())
  | .decorations document stale items =>
    decorationsFields.write (document.path, stale, items.map Decoration.data, ())
  | .panel kind title html => panelFields.write (kind.name, title, html, ())
  | .progress active title => progressFields.write (active, title, ())
  | .cleared panels => clearedFields.write (panels.map Panel.name, ())

def toValue (e : Event) : Value :=
  .object (("event", .text e.name) :: e.entries)

def encode (e : Event) : String :=
  e.toValue.compact

def decode (s : String) : Except Fault Event :=
  union.decode (symbolsOfText s)

def line (e : Event) : List UInt8 :=
  Text.Utf8.encode (e.encode ++ "\n")

end Event

end CostWatch

import CostWatch.Cost.Record
import CostWatch.Json.Printer
import CostWatch.Json.Tagged

/-!
Requests of the editor: JSON objects in which the entry `command` tells what is asked for.
-/

set_option autoImplicit false

namespace CostWatch

inductive Request where
  /-- Show the costs of the active file. -/
  | enableForFile
  /-- Show the costs of the project that a command builds. -/
  | enableForProject (buildCommand : String)
  /-- Repeat the analysis of the current mode. -/
  | reExecute
  /-- Analyse only the active file of a project. -/
  | reExecuteFileInProject
  | disable
  /-- Remove caches and analyzer output. -/
  | cleanOutput
  | whitelistAdd (name : String)
  | whitelistRemove (name : String)
  /-- Show the history of a method. -/
  | openDetail (method : MethodId)
  /-- Show the costs of the active document, with a method marked. -/
  | openOverview (selected : Option String)
  /-- The editor shows another document. -/
  | documentActivated (document : Document) (text : String)
  | documentChanged (document : Document) (text : String)
  | documentSaved (document : Document) (text : String)
  | shutdown
  deriving DecidableEq, Repr

namespace Request

open Json

def textField (key : String) : Fields :=
  .cons key .required .string .nil

def documentFields : Fields :=
  .cons "document" .required .string <| .cons "text" .required .string .nil

def selectedFields : Fields :=
  .cons "selected" .optional (.nullable .string) .nil

def wording (variant : String) : String :=
  "struct variant Request::" ++ variant

def bare (name variant : String) (r : Request) : Variant Request :=
  ⟨name, wording variant, .nil, fun _ => r⟩

def withText (name variant key : String) (make : String → Request) : Variant Request :=
  ⟨name, wording variant, textField key, fun (s, ()) => make s⟩

def withDocument (name variant : String) (make : Document → String → Request) : Variant Request :=
  ⟨name, wording variant, documentFields, fun (path, text, ()) => make ⟨path⟩ text⟩

def union : Tagged Request where
  tag := "command"
  wording := "internally tagged enum Request"
  variants :=
    [bare "enable_for_file" "EnableForFile" .enableForFile,
      withText "enable_for_project" "EnableForProject" "build_command" .enableForProject,
      bare "re_execute" "ReExecute" .reExecute,
      bare "re_execute_file_in_project" "ReExecuteFileInProject" .reExecuteFileInProject,
      bare "disable" "Disable" .disable,
      bare "clean_output" "CleanOutput" .cleanOutput,
      withText "whitelist_add" "WhitelistAdd" "name" .whitelistAdd,
      withText "whitelist_remove" "WhitelistRemove" "name" .whitelistRemove,
      withText "open_detail" "OpenDetail" "method_id" (fun key => .openDetail ⟨key⟩),
      ⟨"open_overview", wording "OpenOverview", selectedFields,
        fun (selected, ()) => .openOverview (Option.getD selected none)⟩,
      withDocument "document_activated" "DocumentActivated" .documentActivated,
      withDocument "document_changed" "DocumentChanged" .documentChanged,
      withDocument "document_saved" "DocumentSaved" .documentSaved,
      bare "shutdown" "Shutdown" .shutdown]

def command : Request → String
  | .enableForFile => "enable_for_file"
  | .enableForProject _ => "enable_for_project"
  | .reExecute => "re_execute"
  | .reExecuteFileInProject => "re_execute_file_in_project"
  | .disable => "disable"
  | .cleanOutput => "clean_output"
  | .whitelistAdd _ => "whitelist_add"
  | .whitelistRemove _ => "whitelist_remove"
  | .openDetail _ => "open_detail"
  | .openOverview _ => "open_overview"
  | .documentActivated _ _ => "document_activated"
  | .documentChanged _ _ => "document_changed"
  | .documentSaved _ _ => "document_saved"
  | .shutdown => "shutdown"

def entries : Request → List (String × Value)
  | .enableForProject buildCommand => (textField "build_command").write (buildCommand, ())
  | .whitelistAdd name => (textField "name").write (name, ())
  | .whitelistRemove name => (textField "name").write (name, ())
  | .openDetail method => (textField "method_id").write (method.key, ())
  | .openOverview selected => selectedFields.write (some selected, ())
  | .documentActivated document text => documentFields.write (document.path, text, ())
  | .documentChanged document text => documentFields.write (document.path, text, ())
  | .documentSaved document text => documentFields.write (document.path, text, ())
  | _ => []

def toValue (r : Request) : Value :=
  .object (("command", .text r.command) :: r.entries)

def encode (r : Request) : String :=
  r.toValue.compact

def ofValue (v : Value) : Except Cause Request :=
  union.ofValue v

def decode (s : String) : Except Fault Request :=
  union.decode (symbolsOfText s)

end Request

end CostWatch

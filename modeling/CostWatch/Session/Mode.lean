/-!
The mode of a session: disabled, or enabled for the active file or for the whole project.
-/

set_option autoImplicit false

namespace CostWatch

inductive Mode where
  | disabled
  | file
  | project
  deriving DecidableEq, Repr

namespace Mode

def names : List String := ["disabled", "file", "project"]

def name : Mode → String
  | .disabled => "disabled"
  | .file => "file"
  | .project => "project"

/-- The mode with a name; disabled for any other text. -/
def ofName (name : String) : Mode :=
  if name = "file" then .file else if name = "project" then .project else .disabled

def shown : Mode → String
  | .disabled => "disabled"
  | .file => "current file"
  | .project => "project"

def isEnabled (m : Mode) : Bool :=
  m != .disabled

end Mode

end CostWatch

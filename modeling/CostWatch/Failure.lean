import CostWatch.Command.Words
import CostWatch.Cost.Report
import CostWatch.Ledger.Storage
import CostWatch.Session.Mode

/-!
Why a request, an analysis or a file operation fails. Every failure becomes a notice; none of them
ends a session.
-/

set_option autoImplicit false

namespace CostWatch

inductive IoFault where
  | notFound
  | permissionDenied
  | exists
  | notADirectory
  | isADirectory
  | busy
  | invalidArgument
  | nameTooLong
  | notEmpty
  | nulInName
  | notUtf8
  /-- A fault in the words of whoever met it. -/
  | other (reason : String)
  deriving DecidableEq, Repr

def IoFault.message : IoFault → String
  | .notFound => "No such file or directory (os error 2)"
  | .permissionDenied => "Permission denied (os error 13)"
  | .busy => "Device or resource busy (os error 16)"
  | .exists => "File exists (os error 17)"
  | .notADirectory => "Not a directory (os error 20)"
  | .isADirectory => "Is a directory (os error 21)"
  | .invalidArgument => "Invalid argument (os error 22)"
  | .nameTooLong => "File name too long (os error 36)"
  | .notEmpty => "Directory not empty (os error 39)"
  | .nulInName => "file name contained an unexpected NUL byte"
  | .notUtf8 => "stream did not contain valid UTF-8"
  | .other reason => reason

inductive InputFault where
  | noActiveDocument
  | notJava (fileName : String)
  | command (command : String) (fault : Command.SplitFault)
  | emptyName (name : String)
  | enableDisabled
  | other (reason : String)

def InputFault.message : InputFault → String
  | .noActiveDocument => "No active document"
  | .notJava fileName => "Costlens can only analyze Java files, not " ++ fileName
  | .command line fault => fault.message line
  | .emptyName name => "method name " ++ Text.quote name ++ " is empty"
  | .enableDisabled => "cannot enable costlens in disabled mode"
  | .other reason => reason

inductive Refusal where
  | alreadyEnabled (mode : Mode)
  | notEnabled
  | needsEnabled
  | noBuildCommand
  | onlyInProject
  | noHistory (id : MethodId)
  | noCosts
  | other (reason : String)

def Refusal.message : Refusal → String
  | .alreadyEnabled mode => "Costlens is already enabled for the " ++ mode.shown
  | .notEnabled => "Costlens is not enabled"
  | .needsEnabled => "Costlens is not enabled; enable it for a file or the project first"
  | .noBuildCommand => "No build command recorded for the project"
  | .onlyInProject => "Re-executing a single file is only available in project mode"
  | .noHistory id => "No cost history for " ++ id.key
  | .noCosts => "No costs for the active document"
  | .other reason => reason

inductive AnalysisFault where
  | report (fault : ReportFault)
  | notStarted (binary : String) (fault : IoFault)
  | exited (binary status detail : String)
  | unreadable (path : String) (fault : IoFault)
  | crashed (reason : String)
  | other (reason : String)

def AnalysisFault.message : AnalysisFault → String
  | .report fault => fault.message
  | .notStarted binary fault => "could not start " ++ binary ++ ": " ++ fault.message
  | .exited binary status detail => binary ++ " exited with " ++ status ++ ": " ++ detail
  | .unreadable path fault => "cannot read " ++ path ++ ": " ++ fault.message
  | .crashed reason => "analyzer task failed: " ++ reason
  | .other reason => reason

inductive ConfigFault where
  | unreadable (path : String) (fault : IoFault)
  | malformed (path : String) (fault : Json.Fault)
  | other (reason : String)

def ConfigFault.message : ConfigFault → String
  | .unreadable path fault => path ++ ": " ++ fault.message
  | .malformed path fault => path ++ ": " ++ fault.message
  | .other reason => reason

inductive Failure where
  | invalidInput (fault : InputFault)
  | analysisFailed (fault : AnalysisFault)
  | notApplicable (refusal : Refusal)
  | busy
  | config (fault : ConfigFault)
  | ledger (error : LedgerError)
  | io (fault : IoFault)

namespace Failure

def message : Failure → String
  | .invalidInput fault => "Invalid input: " ++ fault.message
  | .analysisFailed fault => "Analysis failed: " ++ fault.message
  | .notApplicable refusal => refusal.message
  | .busy => "An analysis is already running"
  | .config fault => "Configuration error: " ++ fault.message
  | .ledger error => "Ledger error: " ++ error.message
  | .io fault => "I/O error: " ++ fault.message

/-- The failure of a ledger operation; a blank name is a fault of the input. -/
def ofLedger : LedgerError → Failure
  | .invalidName name => .invalidInput (.emptyName name)
  | error => .ledger error

def ofReport (fault : ReportFault) : Failure :=
  .analysisFailed (.report fault)

end Failure

namespace Mode

def checkEnable (current requested : Mode) : Except Failure Unit :=
  if requested = .disabled then .error (.invalidInput .enableDisabled)
  else if current = requested then .error (.notApplicable (.alreadyEnabled requested))
  else .ok ()

def checkDisable (current : Mode) : Except Failure Unit :=
  if current = .disabled then .error (.notApplicable .notEnabled) else .ok ()

def requireEnabled (current : Mode) : Except Failure Unit :=
  if current = .disabled then .error (.notApplicable .needsEnabled) else .ok ()

end Mode

end CostWatch

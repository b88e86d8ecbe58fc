import CostWatch.Command.Analyzer
import CostWatch.Cost.Moment
import CostWatch.Ledger.Basic
import CostWatch.Wire.Event

/-!
What a session hands out and what it is told: analyses that its host has to run, the outcome of a
request, and the circumstances under which a request is handled.
-/

set_option autoImplicit false

namespace CostWatch

inductive Purpose where
  | enable (mode : Mode)
  /-- To repeat the analysis of the current mode. -/
  | reExecute
  /-- To repeat the analysis of one file of a project. -/
  | fileInProject
  deriving DecidableEq, Repr

structure Analysis where
  id : Nat
  purpose : Purpose
  /-- The analysed document; none for a project. -/
  document : Option Document
  job : Job
  deriving DecidableEq, Repr

def Analysis.title (a : Analysis) : String :=
  match a.document with
  | some document => "Running cost analysis on " ++ document.fileName
  | none => "Running cost analysis on the project"

structure Outcome where
  events : List Event
  analysis : Option Analysis
  deriving DecidableEq, Repr

namespace Outcome

def nothing : Outcome := ⟨[], none⟩

def ofEvents (events : List Event) : Outcome := ⟨events, none⟩

end Outcome

/-- What a request meets outside the session: the time, and how the database and the file system
answer what is asked of them. -/
structure Circumstances where
  now : Moment
  ledgerWrite : Attempt
  /-- Why the folder of the caches is not removed. -/
  cacheRemoval : Option IoFault
  /-- Why the output directory of the analyzer is not removed. -/
  outputRemoval : Option IoFault

def Circumstances.favourable (now : Moment) : Circumstances :=
  ⟨now, .succeeds, none, none⟩

end CostWatch

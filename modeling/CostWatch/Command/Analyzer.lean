import CostWatch.Failure
import CostWatch.Path

/-!
Runs of the analyzer: how it is called, and what its end means.

The analyzer compiles a file or builds a project, writes a report into its output directory and
ends. The report counts only if it ended well.
-/

set_option autoImplicit false

namespace CostWatch

inductive Target where
  | file (path : String)
  /-- The words of the command that builds the project. -/
  | project (build : List String)
  deriving DecidableEq, Repr

structure Job where
  target : Target
  /-- Where the run puts its output; removed afterwards. -/
  outputDir : String
  /-- Where the analyzer is started. -/
  workingDir : String
  deriving DecidableEq, Repr

namespace Job

def arguments (job : Job) : List String :=
  ["--cost", "-o", job.outputDir, "--"] ++
    match job.target with
    | .file path => ["javac", path]
    | .project build => build

def reportName : String := "costs-report.json"

def reportPath (job : Job) : String :=
  Path.append job.outputDir reportName

end Job

inductive ExitStatus where
  | code (n : Nat)
  | signal (n : Nat)
  deriving DecidableEq, Repr

namespace ExitStatus

/-- The names of the signals that have a number on every system. -/
def signalNames : List (Nat × String) :=
  [(1, "SIGHUP"), (2, "SIGINT"), (3, "SIGQUIT"), (4, "SIGILL"), (5, "SIGTRAP"), (6, "SIGABRT"),
    (7, "SIGBUS"), (8, "SIGFPE"), (9, "SIGKILL"), (10, "SIGUSR1"), (11, "SIGSEGV"),
    (12, "SIGUSR2"), (13, "SIGPIPE"), (14, "SIGALRM"), (15, "SIGTERM"), (16, "SIGSTKFLT"),
    (17, "SIGCHLD"), (18, "SIGCONT"), (19, "SIGSTOP"), (20, "SIGTSTP"), (21, "SIGTTIN"),
    (22, "SIGTTOU"), (23, "SIGURG"), (24, "SIGXCPU"), (25, "SIGXFSZ"), (26, "SIGVTALRM"),
    (27, "SIGPROF"), (28, "SIGWINCH"), (29, "SIGIO"), (30, "SIGPWR"), (31, "SIGSYS")]

def shown : ExitStatus → String
  | .code n => s!"exit status: {n}"
  | .signal n =>
    match signalNames.lookup n with
    | some name => s!"signal: {n} (" ++ name ++ ")"
    | none => s!"signal: {n}"

def isSuccess (s : ExitStatus) : Bool :=
  s == .code 0

end ExitStatus

inductive Ending where
  | notStarted (fault : IoFault)
  /-- The process ended; `report` is what is found at the place of the report. -/
  | ended (status : ExitStatus) (errors : List UInt8) (report : Except IoFault (List UInt8))

/-- The lines of a text; a line break at the end begins no further line. -/
def linesOf (cs : List Char) : List (List Char) :=
  let parts := (cs.foldr (fun c lines =>
    match c, lines with
    | '\n', lines => [] :: lines
    | c, line :: rest => (c :: line) :: rest
    | c, [] => [[c]]) [[]] : List (List Char))
  let kept := if parts.getLast? == some [] then parts.dropLast else parts
  kept.map fun line => if line.getLast? == some '\r' then line.dropLast else line

def lastLine (errors : List UInt8) : String :=
  match (linesOf (Text.Utf8.decodeLossy errors).toList).getLast? with
  | some line => Text.trim (String.ofList line)
  | none => "no output"

def Job.report (job : Job) (binary : String) : Ending → Except Failure (List UInt8)
  | .notStarted fault => .error (.analysisFailed (.notStarted binary fault))
  | .ended status errors report =>
    if status.isSuccess then
      match report with
      | .ok bytes => .ok bytes
      | .error fault => .error (.analysisFailed (.unreadable job.reportPath fault))
    else .error (.analysisFailed (.exited binary status.shown (lastLine errors)))

end CostWatch

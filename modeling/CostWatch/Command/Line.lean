/-!
The command line: its options, commands and operands.

Arguments are read from the first to the last. An option stands anywhere before `--`, and of an
option given both before and after a command the latter counts. Asking for help or for the version
ends the reading at once.
-/

set_option autoImplicit false

namespace CostWatch

inductive WhitelistAction where
  | add (name : String)
  | remove (name : String)
  | list
  deriving DecidableEq, Repr

inductive Command where
  /-- Serve an editor on the standard streams. -/
  | serve
  /-- Print the costs of one file, as a table or as the page of the overview. -/
  | analyze (file : String) (html : Bool)
  /-- Print the history of a method. -/
  | history (method : String)
  | whitelist (action : WhitelistAction)
  /-- Remove caches and analyzer output. -/
  | clean
  deriving DecidableEq, Repr

inductive Invocation where
  | run (config : String) (command : Command)
  | help
  | version
  | misuse
  deriving DecidableEq, Repr

namespace CommandLine

def defaultConfig : String := "costlens.json"

inductive Level where
  | top
  | serve
  | analyze
  | history
  | whitelist
  | add
  | remove
  | list
  | clean
  deriving DecidableEq, Repr

namespace Level

def commands : Level → List (String × Level)
  | top =>
    [("serve", serve), ("analyze", analyze), ("history", history), ("whitelist", whitelist),
      ("clean", clean)]
  | whitelist => [("add", add), ("remove", remove), ("list", list)]
  | _ => []

/-- The commands that help may be asked for by name: those that may follow, and `help` itself, after
which there is none. -/
def topics (level : Level) : List (String × Level) :=
  if level.commands.isEmpty then [] else level.commands ++ [("help", list)]

def takesOperand : Level → Bool
  | analyze => true
  | history => true
  | add => true
  | remove => true
  | _ => false

end Level

structure Reading where
  level : Level := .top
  config : Option String := none
  html : Bool := false
  operand : Option String := none
  /-- The options that were given since the command was named. -/
  given : List String := []
  /-- Whether only operands may follow. -/
  operandsOnly : Bool := false

/-- The outcome of one argument: go on, or take the next argument as the value of an option, or take
all that follow as the names of a command that help is asked for, or stop. -/
inductive Progress where
  | onward (r : Reading)
  | awaiting (option : String) (r : Reading)
  | helping (level : Level)
  | done (i : Invocation)

def giveValue (r : Reading) (option value : String) : Progress :=
  if r.given.contains option then .done .misuse
  else
    let r := { r with given := option :: r.given }
    if option = "config" then
      if value = "" then .done .misuse else .onward { r with config := some value }
    else .onward r

def longOption (r : Reading) (name : String) (value : Option String) : Progress :=
  match name, value with
  | "config", some value => giveValue r "config" value
  | "config", none => .awaiting "config" r
  | "log", some value => giveValue r "log" value
  | "log", none => .awaiting "log" r
  | "help", none => .done .help
  | "version", none => if r.level = .top then .done .version else .done .misuse
  | "html", none =>
    if r.level = .analyze && !r.html then .onward { r with html := true } else .done .misuse
  | _, _ => .done .misuse

/-- Reads the short options of an argument, of which only the first one counts: each of them either
takes the rest as its value or ends the reading. -/
def shortOptions (r : Reading) : List Char → Progress
  | ['c'] => .awaiting "config" r
  | 'c' :: '=' :: value => giveValue r "config" (String.ofList value)
  | 'c' :: value => giveValue r "config" (String.ofList value)
  | 'h' :: _ => .done .help
  | 'V' :: _ => if r.level = .top then .done .version else .done .misuse
  | _ => .done .misuse

def operand (r : Reading) (argument : String) : Progress :=
  match r.operandsOnly, r.level.commands.lookup argument with
  | false, some level => .onward { r with level, given := [] }
  | _, _ =>
    if !r.operandsOnly && argument = "help" && !r.level.commands.isEmpty then .helping r.level
    else if !r.level.takesOperand || r.operand.isSome then .done .misuse
    else if r.level = .analyze && argument = "" then .done .misuse
    else .onward { r with operand := some argument }

def argument (r : Reading) (text : String) : Progress :=
  if r.operandsOnly then operand r text
  else
    match text.toList with
    | ['-', '-'] => .onward { r with operandsOnly := true }
    | '-' :: '-' :: rest =>
      match rest.span (· != '=') with
      | (name, []) => longOption r (String.ofList name) none
      | (name, _ :: value) => longOption r (String.ofList name) (some (String.ofList value))
    | '-' :: c :: rest => shortOptions r (c :: rest)
    | _ => operand r text

def isValue (text : String) : Bool :=
  match text.toList with
  | '-' :: _ :: _ => false
  | _ => true

def conclude (r : Reading) : Invocation :=
  let run := Invocation.run (r.config.getD defaultConfig)
  match r.level, r.operand with
  | .serve, _ => run .serve
  | .analyze, some file => run (.analyze file r.html)
  | .history, some method => run (.history method)
  | .add, some name => run (.whitelist (.add name))
  | .remove, some name => run (.whitelist (.remove name))
  | .list, _ => run (.whitelist .list)
  | .clean, _ => run .clean
  | _, _ => .misuse

def helpOn (level : Level) : List String → Invocation
  | [] => .help
  | name :: rest =>
    match level.topics.lookup name with
    | some level => helpOn level rest
    | none => .misuse

/-- Reads arguments, the first of them perhaps as the value of an option. -/
def readFrom (awaited : Option String) (r : Reading) : List String → Invocation
  | [] => if awaited.isSome then .misuse else conclude r
  | text :: rest =>
    let progress := match awaited with
      | some option => if isValue text then giveValue r option text else .done .misuse
      | none => argument r text
    match progress with
    | .onward r => readFrom none r rest
    | .awaiting option r => readFrom (some option) r rest
    | .helping level => helpOn level rest
    | .done i => i

def read (arguments : List String) : Invocation :=
  readFrom none {} arguments

end CommandLine

end CostWatch

import CostWatch.Session.Completion
import CostWatch.Session.Request

/-!
The host of a session: it cuts the bytes of its input into lines, passes each line to the session as
a request, and passes on what the analyses that it runs bring.

Bytes are read by calls. A call ends with a line, or it is given up when an analysis is completed;
the bytes that it has read stay. At the end of the input, a call that has read bytes ends with them
as the last line, and a call that has read none ends the input.
-/

set_option autoImplicit false

namespace CostWatch

inductive LineFault where
  | notUtf8 (fault : Text.Utf8.Fault)
  | malformed (fault : Json.Fault)

def LineFault.message : LineFault → String
  | notUtf8 fault => "not UTF-8 (" ++ fault.message ++ ")"
  | malformed fault => fault.message

/-- The request in a line; none in a blank one. -/
def requestOfLine (line : List UInt8) : Except LineFault (Option Request) :=
  match Text.Utf8.decode line with
  | .error fault => .error (.notUtf8 fault)
  | .ok text =>
    let text := Text.trim text
    if text = "" then .ok none
    else
      match Request.decode text with
      | .ok request => .ok (some request)
      | .error fault => .error (.malformed fault)

inductive Effect where
  /-- Writes an event to the editor. -/
  | send (event : Event)
  /-- Runs an analysis. -/
  | start (analysis : Analysis)

def Outcome.effects (o : Outcome) : List Effect :=
  o.events.map .send ++ o.analysis.toList.map .start

structure Host where
  session : Session
  /-- The bytes of the line that is not complete, last one first. -/
  line : List UInt8
  /-- How many of them the current call has read. -/
  readByCall : Nat
  /-- Whether input is read. -/
  reading : Bool

namespace Host

def new (session : Session) : Host :=
  ⟨session, [], 0, true⟩

def isOver (h : Host) : Bool :=
  !h.reading && !h.session.isBusy

def takeLine (h : Host) (c : Circumstances) : List Effect × Host :=
  let line := h.line.reverse
  let h := { h with line := [], readByCall := 0 }
  match requestOfLine line with
  | .ok none => ([], h)
  | .ok (some .shutdown) => ([], { h with reading := false })
  | .ok (some request) =>
    match h.session.handle request c with
    | (.ok outcome, session) => (outcome.effects, { h with session })
    | (.error f, session) => ([.send (.ofFailure f)], { h with session })
  | .error fault => ([.send (.warning ("Invalid request: " ++ fault.message))], h)

def readByte (h : Host) (b : UInt8) (c : Circumstances) : List Effect × Host :=
  if h.reading then
    let h := { h with line := b :: h.line, readByCall := h.readByCall + 1 }
    if b = 10 then h.takeLine c else ([], h)
  else ([], h)

def readBytes (h : Host) (c : Circumstances) : List UInt8 → List Effect × Host
  | [] => ([], h)
  | b :: rest =>
    let (effects, h) := h.readByte b c
    let (more, h) := h.readBytes c rest
    (effects ++ more, h)

def inputOver (h : Host) (c : Circumstances) : List Effect × Host :=
  if h.reading && h.readByCall != 0 then
    let (effects, h) := h.takeLine c
    (effects, { h with reading := false })
  else ([], { h with reading := false })

/-- Passes on what an analysis brings. The current call is given up. -/
def completed (h : Host) (analysis : Analysis) (result : Except Failure (List UInt8))
    (c : Circumstances) : List Effect × Host :=
  let (outcome, session) := h.session.complete analysis result c
  (outcome.effects, { h with session, readByCall := 0 })

end Host

end CostWatch

import CostWatch.Session.Basic

/-!
How a session takes up the result of an analysis.

The report is read as a whole and written to the ledger before anything changes; a failure up to
that point leaves the session as it was. A cache that cannot be written is no failure.
-/

set_option autoImplicit false

namespace CostWatch.Session

def addRecord (d : Document) (r : Record) : List CachedDocument → List CachedDocument
  | [] => [⟨d, [r]⟩]
  | c :: rest =>
    if d = c.document then { c with records := c.records ++ [r] } :: rest
    else if d.path < c.document.path then ⟨d, [r]⟩ :: c :: rest
    else c :: addRecord d r rest

def reportedDocument (s : Session) (analysis : Analysis) (file : String) : Document :=
  match analysis.document with
  | some document => document
  | none => ⟨Path.resolve s.config.workspace.root file⟩

/-- Records by document, in the order of the documents. An analysed document is among them even if
it has no records. -/
def byDocument (s : Session) (analysis : Analysis) (records : List Record) :
    List CachedDocument :=
  records.foldl
    (fun grouped r => addRecord (s.reportedDocument analysis r.location.file) r grouped)
    (analysis.document.toList.map fun document => ⟨document, []⟩)

def cacheName (analysis : Analysis) : String :=
  match analysis.document with
  | some document => Cache.fileName document.stem
  | none => Cache.projectName

def takeUp (s : Session) (analysis : Analysis) (records : List Record) : Session :=
  let documents := s.byDocument analysis records
  let (_, cache) := Cache.store s.cache (cacheName analysis) documents
  let s := { s with cache }.install documents
  let s := match analysis.purpose with
    | .enable mode =>
      match analysis.job.target with
      | .project build => { s with mode, buildCommand := some build }
      | .file _ => { s with mode }
    | _ => s
  s.refreshBaseline

def applyReport (s : Session) (analysis : Analysis) (report : List UInt8) (c : Circumstances) :
    Except Failure (List Event × Session) :=
  match readReport (s.reportedDocument analysis) report with
  | .error fault => .error (.ofReport fault)
  | .ok records =>
    match s.ledger.record records c.now c.ledgerWrite with
    | .error e => .error (.ofLedger e)
    | .ok (_, ledger) =>
      let s := { s with ledger }.takeUp analysis records
      .ok (s.decorations ++
        [.info s!"Cost analysis finished. Methods analyzed: {records.length}"], s)

/-- Completes an analysis with its report or with the reason why there is none. Only the analysis
that is running counts. -/
def complete (s : Session) (analysis : Analysis) (result : Except Failure (List UInt8))
    (c : Circumstances) : Outcome × Session :=
  match s.running with
  | none => (.nothing, s)
  | some running =>
    if running.id = analysis.id then
      let s := { s with running := none }
      let ended := Event.progress false analysis.title
      if running.discard then
        (.ofEvents [ended, .info "Analysis result discarded: costlens was disabled"], s)
      else
        match result with
        | .error f => (.ofEvents [ended, .ofFailure f], s)
        | .ok report =>
          match s.applyReport analysis report c with
          | .ok (events, s) => (.ofEvents (ended :: events), s)
          | .error f => (.ofEvents [ended, .ofFailure f], s)
    else (.nothing, s)

end CostWatch.Session

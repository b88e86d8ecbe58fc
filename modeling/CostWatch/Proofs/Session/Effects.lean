import CostWatch.Session.Completion
import CostWatch.Session.Request

/-!
What the operations of a session change, as updates of its fields.

Loading a cache and taking up an analysis both replace the costs of documents, display those of the
active one and make its text the baseline. All other fields stay as they are, which the equations of
this module show at one glance.
-/

set_option autoImplicit false

namespace CostWatch

theorem Mode.isEnabled_iff {m : Mode} : m.isEnabled = true ↔ m ≠ .disabled := by
  cases m <;> simp [isEnabled]

def Store.setAll (store : Store) (documents : List CachedDocument) : Store :=
  documents.foldl (fun st c => st.set c.document c.records) store

def covers (documents : List CachedDocument) (d : Document) : Bool :=
  documents.any fun c => c.document = d

namespace Session

/-! Displays and baselines -/

def displaying (store : Store) (active : Option ActiveDocument) : Store :=
  { store with shown := active.bind fun a => store.get? a.document }

theorem selectCurrent_eq (s : Session) :
    s.selectCurrent = { s with store := displaying s.store s.active } := by
  unfold selectCurrent displaying
  cases found : s.active.bind fun a => s.store.get? a.document with
  | none => rfl
  | some records => rfl

/-- The baselines in which the active text is the one of its document. -/
def refreshed (baselines : Baselines) (active : Option ActiveDocument) : Baselines :=
  match active with
  | none => baselines
  | some a => baselines.put a.document a.text

theorem refreshBaseline_eq (s : Session) :
    s.refreshBaseline = { s with baselines := refreshed s.baselines s.active } := by
  obtain ⟨_, _, _, _, _, _, active, _, _, _, _, _, _, _⟩ := s
  cases active with
  | none => rfl
  | some a => rfl

theorem find?_refreshed (baselines : Baselines) (active : Option ActiveDocument) (d : Document) :
    (refreshed baselines active).find? d =
      match active with
      | some a => if d = a.document then some a.text else baselines.find? d
      | none => baselines.find? d := by
  cases active with
  | none => rfl
  | some a => exact Table.find?_put baselines a.document d a.text

/-! Decorations -/

theorem mem_decorations {s : Session} {event : Event} :
    event ∈ s.decorations ↔ ∃ a ds, s.active = some a ∧ s.extract a.text = .ok ds ∧
      event = .decorations a.document (s.isStale a.document)
        ((bindDeclarations ds s.store.displayed).map
          (decorationOf s.config.display.expensiveDegree)) := by
  unfold decorations
  cases s.active with
  | none => simp
  | some a => cases found : s.extract a.text <;> simp [found]

/-! New costs -/

theorem foldl_installDocument (s : Session) (documents : List CachedDocument) :
    documents.foldl installDocument s =
      { s with
        stale := s.stale.filter fun d => !covers documents d
        store := s.store.setAll documents } := by
  induction documents generalizing s with
  | nil =>
    have stale : (s.stale.filter fun d => !covers [] d) = s.stale := by simp [covers]
    rw [stale]
    rfl
  | cons c rest ih =>
    rw [List.foldl_cons, ih]
    have stale : ((s.installDocument c).stale.filter fun d => !covers rest d) =
        s.stale.filter fun d => !covers (c :: rest) d := by
      simp only [installDocument, List.filter_filter]
      refine List.filter_congr fun d _ => ?_
      by_cases same : d = c.document
      · simp [covers, same]
      · simp [covers, same, Ne.symm same]
    rw [stale]
    rfl

theorem install_eq (s : Session) (documents : List CachedDocument) :
    s.install documents =
      { s with
        stale := s.stale.filter fun d => !covers documents d
        store := displaying (s.store.setAll documents) s.active } := by
  rw [install, foldl_installDocument, selectCurrent_eq]

def loaded (s : Session) (mode : Mode) (documents : List CachedDocument) : Session :=
  { s with
    mode
    stale := s.stale.filter fun d => !covers documents d
    store := displaying (s.store.setAll documents) s.active
    baselines := refreshed s.baselines s.active }

theorem enableFromCache_eq (s : Session) (mode : Mode) (documents : List CachedDocument) :
    ∃ message, s.enableFromCache mode documents =
      ((s.loaded mode documents).decorations ++ [.info message], s.loaded mode documents) := by
  simp only [enableFromCache, refreshBaseline_eq, install_eq, loaded]
  exact ⟨_, rfl⟩

def modeAfter (s : Session) (a : Analysis) : Mode :=
  match a.purpose with
  | .enable mode => mode
  | _ => s.mode

def buildAfter (s : Session) (a : Analysis) : Option (List String) :=
  match a.purpose, a.job.target with
  | .enable _, .project build => some build
  | _, _ => s.buildCommand

/-- The session that has taken up the records of the analysis it waited for. -/
def settled (s : Session) (a : Analysis) (records : List Record) (ledger : Ledger) : Session :=
  { s with
    running := none
    ledger
    cache := (Cache.store s.cache (cacheName a) (s.byDocument a records)).2
    mode := s.modeAfter a
    buildCommand := s.buildAfter a
    stale := s.stale.filter fun d => !covers (s.byDocument a records) d
    store := displaying (s.store.setAll (s.byDocument a records)) s.active
    baselines := refreshed s.baselines s.active }

theorem takeUp_eq (s : Session) (a : Analysis) (records : List Record) (ledger : Ledger) :
    { s with running := none, ledger }.takeUp a records = s.settled a records ledger := by
  unfold takeUp settled modeAfter buildAfter
  cases a.purpose with
  | enable mode =>
    cases a.job.target with
    | file path => simp only [install_eq, refreshBaseline_eq]; rfl
    | project build => simp only [install_eq, refreshBaseline_eq]; rfl
  | reExecute => simp only [install_eq, refreshBaseline_eq]; rfl
  | fileInProject => simp only [install_eq, refreshBaseline_eq]; rfl

/-! Edits and saves -/

/-- The session after an edit: the text is remembered if the document is active. -/
def edited (s : Session) (d : Document) (text : String) : Session :=
  { s with active := s.active.map fun a => if a.document = d then ⟨d, text⟩ else a }

theorem edited_of_some {s t : Session} {d : Document} {text : String}
    (active : s.withText? d text = some t) : s.edited d text = t := by
  obtain ⟨_, _, _, _, _, _, document, _, _, _, _, _, _, _⟩ := s
  cases document with
  | none => cases active
  | some a =>
    by_cases same : a.document = d
    · simpa [edited, withText?, same] using active
    · simp [withText?, same] at active

theorem edited_of_none {s : Session} {d : Document} {text : String}
    (inactive : s.withText? d text = none) : s.edited d text = s := by
  obtain ⟨_, _, _, _, _, _, document, _, _, _, _, _, _, _⟩ := s
  cases document with
  | none => rfl
  | some a =>
    by_cases same : a.document = d
    · simp [withText?, same] at inactive
    · simp [edited, same]

def isActive (s : Session) (d : Document) : Bool :=
  s.active.any (·.document = d)

theorem isActive_eq {s : Session} (d : Document) (text : String) :
    s.isActive d = (s.withText? d text).isSome := by
  unfold isActive withText?
  cases s.active with
  | none => rfl
  | some a => by_cases same : a.document = d <;> simp [same]

theorem active_edited {s : Session} {d : Document} {live : String}
    (active : s.active = some ⟨d, live⟩) (edited : Document) (text : String) :
    (s.edited edited text).active = some ⟨d, if edited = d then text else live⟩ := by
  simp only [Session.edited, active, Option.map_some]
  by_cases same : d = edited
  · simp [same]
  · simp [same, Ne.symm same]

/-- Whether a save shows a significant change. A document without a baseline shows none. -/
def savesSignificantly (s : Session) (d : Document) (text : String) : Bool :=
  s.mode.isEnabled &&
    match s.baselines.find? d with
    | some baseline => (Change.check s.extract baseline text s.ledger.whitelist).isSignificant
    | none => false

theorem savesSignificantly_eq {s : Session} {d : Document} {baseline text : String}
    (shows : s.mode.isEnabled = true) (found : s.baselines.find? d = some baseline) :
    s.savesSignificantly d text =
      (Change.check s.extract baseline text s.ledger.whitelist).isSignificant := by
  simp [savesSignificantly, shows, found]

def compared (s : Session) (d : Document) (text : String) : Session :=
  { s with
    baselines := if s.mode.isEnabled then s.baselines.put d text else s.baselines
    stale := if s.savesSignificantly d text then (s.markStale d).stale else s.stale }

/-- The session after a save, before it starts an analysis. -/
def saved (s : Session) (d : Document) (text : String) : Session :=
  (s.edited d text).compared d text

theorem find?_saved {s : Session} (shows : s.mode ≠ .disabled) (saved d : Document)
    (text : String) :
    (s.saved saved text).baselines.find? d =
      if d = saved then some text else s.baselines.find? d := by
  have replaced : (s.saved saved text).baselines = s.baselines.put saved text :=
    if_pos (Mode.isEnabled_iff.mpr shows)
  rw [replaced, Table.find?_put]

theorem mem_stale_saved {s : Session} {saved d : Document} {text : String} :
    d ∈ (s.saved saved text).stale ↔
      saved = d ∧ s.savesSignificantly saved text = true ∨ d ∈ s.stale := by
  have same : (s.saved saved text).stale =
      if s.savesSignificantly saved text then (s.markStale saved).stale else s.stale := rfl
  rw [same]
  split
  · next significant =>
    simp only [significant, and_true, markStale]
    split
    · next already =>
      have listed : saved ∈ s.stale := List.contains_iff_mem.mp already
      exact ⟨.inr, fun marked => marked.elim (fun same => same ▸ listed) id⟩
    · rw [List.mem_cons, eq_comm]
  · next insignificant => simp [insignificant]

end Session

end CostWatch

import CostWatch.Proofs.Session.Flight

/-!
How an episode bears on the documents: on the text of the active one, on the baselines, and on which
of them are stale.
-/

set_option autoImplicit false

namespace CostWatch

namespace Episode
variable (e : Episode)

/-- The document that is edited, with its text. A save counts as an edit. -/
def edit? : Option (Document × String) :=
  match e.occurrence with
  | .request (.documentChanged d text) _ | .request (.documentSaved d text) _ => some (d, text)
  | _ => none

def save? : Option (Document × String) :=
  match e.occurrence with
  | .request (.documentSaved d text) _ => some (d, text)
  | _ => none

def activates : Bool :=
  match e.occurrence with
  | .request (.documentActivated _ _) _ => true
  | _ => false

def renewed? : Option (List CachedDocument) :=
  match e.occurrence with
  | .request r _ => e.session.loads? r
  | .completion a result c => (e.session.takesUp? a result c).map (e.session.byDocument a)
  | .folders _ _ => none

end Episode

/-- The cases of an episode, seen from the documents. -/
inductive Bearing (e : Episode) : Prop where
  | none : e.edit? = none → e.save? = none → e.renewed? = none → e.disables = false →
      e.next.mode = e.session.mode → e.next.active = e.session.active →
      e.next.baselines = e.session.baselines → e.next.stale = e.session.stale → Bearing e
  | renewed (documents : List CachedDocument) : e.edit? = none → e.save? = none →
      e.renewed? = some documents → e.disables = false → e.next.active = e.session.active →
      e.next.baselines = Session.refreshed e.session.baselines e.session.active →
      e.next.stale = e.session.stale.filter (fun d => !covers documents d) → Bearing e
  | changed (d : Document) (text : String) : e.edit? = some (d, text) → e.save? = none →
      e.renewed? = none → e.disables = false → e.next.mode = e.session.mode →
      e.next.active = (e.session.edited d text).active →
      e.next.baselines = e.session.baselines → e.next.stale = e.session.stale → Bearing e
  | saved (d : Document) (text : String) : e.edit? = some (d, text) → e.save? = some (d, text) →
      e.renewed? = none → e.disables = false → e.next.mode = e.session.mode →
      e.next.active = (e.session.edited d text).active →
      e.next.baselines = (e.session.saved d text).baselines →
      e.next.stale = (e.session.saved d text).stale → Bearing e
  | activated : e.activates = true → e.save? = none → e.renewed? = none → e.disables = false →
      e.next.stale = e.session.stale → Bearing e
  | disabled : e.disables = true → e.save? = none → e.next.stale = [] → Bearing e

theorem edit?_eq_none {e : Episode} {r : Request} {c : Circumstances}
    (asked : e.occurrence = .request r c) (other : Session.tells r = false) :
    e.edit? = none ∧ e.save? = none := by
  unfold Episode.edit? Episode.save?
  rw [asked]
  cases r with
  | documentChanged | documentSaved => cases other
  | _ => exact ⟨rfl, rfl⟩

theorem renewed?_of_request {e : Episode} {r : Request} {c : Circumstances}
    (asked : e.occurrence = .request r c) : e.renewed? = e.session.loads? r := by
  rw [Episode.renewed?, asked]

theorem renewed?_of_completion {e : Episode} {a : Analysis} {result : Except Failure (List UInt8)}
    {c : Circumstances} (ended : e.occurrence = .completion a result c) :
    e.renewed? = (e.session.takesUp? a result c).map (e.session.byDocument a) := by
  rw [Episode.renewed?, ended]

theorem Session.Starts.tells_eq_false {s : Session} {r : Request} {purpose : Purpose}
    {document : Option Document} {job : Job} (starts : s.Starts r purpose document job) :
    tells r = false := by
  cases starts <;> rfl

theorem bearing (e : Episode) : Bearing e := by
  obtain ⟨s, o⟩ := e
  have step := s.step_meet o
  have after : (Episode.mk s o).next = (s.meet o).2 := rfl
  have answered : (Episode.mk s o).answer = (s.meet o).1 := rfl
  generalize (s.meet o).2 = next at step after
  generalize (s.meet o).1 = answer at step answered
  have mode := congrArg Session.mode after
  have active := congrArg Session.active after
  have baselines := congrArg Session.baselines after
  have stale := congrArg Session.stale after
  -- What tells nothing of a document and brings no costs leaves the documents as they are.
  have quiet {r : Request} {c : Circumstances} (asked : o = .request r c)
      (other : Session.tells r = false) (notLoaded : s.loads? r = none)
      (enabled : (Episode.mk s o).disables = false) (sameMode : next.mode = s.mode)
      (sameActive : next.active = s.active) (sameBaselines : next.baselines = s.baselines)
      (sameStale : next.stale = s.stale) : Bearing (Episode.mk s o) := by
    obtain ⟨notEdited, notSaved⟩ := edit?_eq_none (e := ⟨s, o⟩) asked other
    exact .none notEdited notSaved ((renewed?_of_request asked).trans notLoaded) enabled
      (mode.trans sameMode) (active.trans sameActive) (baselines.trans sameBaselines)
      (stale.trans sameStale)
  have ended {a : Analysis} {result : Except Failure (List UInt8)} {c : Circumstances}
      (ends : o = .completion a result c) (notTaken : s.takesUp? a result c = none)
      (sameMode : next.mode = s.mode) (sameActive : next.active = s.active)
      (sameBaselines : next.baselines = s.baselines) (sameStale : next.stale = s.stale) :
      Bearing (Episode.mk s o) := by
    subst ends
    have notRenewed : (Episode.mk s (.completion a result c)).renewed? = none := by
      rw [renewed?_of_completion rfl, notTaken]
      rfl
    exact .none rfl rfl notRenewed rfl (mode.trans sameMode) (active.trans sameActive)
      (baselines.trans sameBaselines) (stale.trans sameStale)
  cases step with
  | refused asks notLoaded =>
    exact quiet rfl asks notLoaded (disables_of_failure answered) rfl rfl rfl rfl
  | loadedFile idle loads =>
    exact .renewed _ rfl rfl ((renewed?_of_request rfl).trans loads) rfl active baselines stale
  | loadedProject idle words loads =>
    exact .renewed _ rfl rfl ((renewed?_of_request rfl).trans loads) rfl active baselines stale
  | started idle notLoaded starts =>
    exact quiet rfl starts.tells_eq_false notLoaded (disables_eq_false rfl starts.ne_disable)
      rfl rfl rfl rfl
  | disabled shows =>
    refine .disabled ?_ rfl stale
    rw [Episode.disables, answered]
  | cleanedInPart idle => exact quiet rfl rfl rfl rfl rfl rfl rfl rfl
  | cleaned idle => exact quiet rfl rfl rfl rfl rfl rfl rfl rfl
  | @exempted r c ledger told exempts =>
    cases r with
    | whitelistAdd | whitelistRemove => exact quiet rfl rfl rfl rfl rfl rfl rfl rfl
    | _ => cases exempts
  | @opened r c panel title html opens shows =>
    cases r with
    | openDetail | openOverview => exact quiet rfl rfl rfl rfl rfl rfl rfl rfl
    | _ => cases opens
  | activated => exact .activated rfl rfl rfl rfl stale
  | @changed d text c =>
    exact .changed d text rfl rfl rfl rfl mode active baselines stale
  | @saved d text c change => exact .saved d text rfl rfl rfl rfl mode active baselines stale
  | @savedAndStarted d text c purpose document job idle starts =>
    exact .saved d text rfl rfl rfl rfl mode active baselines stale
  | shutDown => exact quiet rfl rfl rfl rfl rfl rfl rfl rfl
  | late other => exact ended rfl (Session.takesUp?_of_late other _ _) rfl rfl rfl rfl
  | discarded running => exact ended rfl (Session.takesUp?_of_discarded running _ _) rfl rfl rfl rfl
  | failed running notTaken => exact ended rfl notTaken rfl rfl rfl rfl
  | takenUp running taken =>
    refine .renewed _ rfl rfl ?_ rfl active baselines stale
    rw [renewed?_of_completion rfl, taken]
    rfl
  | folders => exact .none rfl rfl rfl rfl mode active baselines stale

theorem stale_of_save {e : Episode} {d : Document} {text : String}
    (save : e.save? = some (d, text)) :
    d ∈ e.next.stale ↔ e.session.savesSignificantly d text = true ∨ d ∈ e.session.stale := by
  cases bearing e with
  | saved document written edit also renewed enabled mode active baselines stale =>
    cases also.symm.trans save
    rw [stale, Session.mem_stale_saved]
    simp
  | none edit other | renewed documents edit other | changed document written edit other =>
    cases other.symm.trans save
  | activated now other | disabled now other => cases other.symm.trans save

end CostWatch

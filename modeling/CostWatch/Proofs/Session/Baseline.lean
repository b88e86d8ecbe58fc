import CostWatch.Proofs.Session.Coherence
import CostWatch.Proofs.Session.Staleness

/-!
With which text the next save of the active document is compared.

It is the text of the last save, unless new costs have come in since: they make the text in the
editor the baseline, saved or not. A change that is saved after that is not noticed.
-/

set_option autoImplicit false

namespace CostWatch

/-! The texts of a document since it is active, in a history that begins then -/

section
variable (d : Document) (text : String)

def liveText : List Episode → String
  | [] => text
  | e :: before =>
    match e.edit? with
    | some (other, edited) => if other = d then edited else liveText before
    | none => liveText before

/-- The text of the last save, or else the one with which the document became active. -/
def savedText : List Episode → String
  | [] => text
  | e :: before =>
    match e.save? with
    | some (other, saved) => if other = d then saved else savedText before
    | none => savedText before

/-- The text with which the next save is compared; at first it is `base`. -/
def comparedText (base : String) : List Episode → String
  | [] => base
  | e :: before =>
    match e.save? with
    | some (other, saved) => if other = d then saved else comparedText base before
    | none => if e.renewed?.isSome then liveText d text before else comparedText base before

end

/-! The texts over a run -/

structure Following (d : Document) (text base : String) (since : List Episode) (s : Session) :
    Prop where
  active : s.active = some ⟨d, liveText d text since⟩
  compares : s.mode ≠ .disabled → s.baselines.find? d = some (comparedText d text base since)

section
variable {d : Document} {text base : String} {since : List Episode} {e : Episode}

theorem following_activation {c : Circumstances} (coherent : e.next.Coherent)
    (activation : e.occurrence = .request (.documentActivated d text) c) :
    Following d text ((e.next.baselines.find? d).getD text) [] e.next := by
  have active : e.next.active = some ⟨d, text⟩ := by
    have same := e.session.documentActivated_eq d text
    have after : e.next = (e.session.activated d text) := by
      rw [Episode.next, activation]
      exact congrArg Prod.snd same
    rw [after]
    rfl
  refine ⟨active, fun shows => ?_⟩
  have found := coherent.compares shows _ active
  obtain ⟨baseline, found⟩ := Option.isSome_iff_exists.mp found
  rw [comparedText, found]
  rfl

theorem following_next (following : Following d text base since e.session)
    (activates : e.activates = false) (disables : e.disables = false) :
    Following d text base (e :: since) e.next := by
  obtain ⟨active, compares⟩ := following
  cases bearing e with
  | none edit save renewed enabled mode sameActive baselines stale =>
    refine ⟨?_, fun shows => ?_⟩
    · rw [liveText, edit, sameActive, active]
    · rw [comparedText, save, renewed, baselines]
      exact compares (mode ▸ shows)
  | renewed documents edit save renewed enabled sameActive baselines stale =>
    refine ⟨?_, fun _ => ?_⟩
    · rw [liveText, edit, sameActive, active]
    · rw [comparedText, save, renewed, baselines, active, Session.find?_refreshed]
      exact if_pos rfl
  | changed document written edit save renewed enabled mode nextActive baselines stale =>
    refine ⟨?_, fun shows => ?_⟩
    · rw [liveText, edit, nextActive, Session.active_edited active]
    · rw [comparedText, save, renewed, baselines]
      exact compares (mode ▸ shows)
  | saved document written edit save renewed enabled mode nextActive baselines stale =>
    refine ⟨?_, fun shows => ?_⟩
    · rw [liveText, edit, nextActive, Session.active_edited active]
    · -- In a mode that shows costs, the saved text becomes the baseline of its document.
      rw [mode] at shows
      rw [comparedText, save, baselines, Session.find?_saved shows, compares shows]
      by_cases same : d = document
      · simp [same]
      · simp [same, Ne.symm same]
  -- What brings in another document, or leaves no baseline, was excluded.
  | activated now save renewed enabled stale => cases activates.symm.trans now
  | disabled now save stale => cases disables.symm.trans now

theorem following_run {start s : Session} {first : Episode} {earlier : List Episode}
    (run : Run start (since ++ first :: earlier) s) (begins : Following d text base [] first.next)
    (quiet : ∀ f ∈ since, f.activates = false ∧ f.disables = false) :
    Following d text base since s := by
  induction since generalizing s with
  | nil =>
    cases run with
    | next before follows => exact begins
  | cons f since ih =>
    obtain ⟨⟨activates, disables⟩, earlierQuiet⟩ := List.forall_mem_cons.mp quiet
    cases run with
    | @next _ t o before follows =>
      have following := ih before earlierQuiet
      exact following_next (e := ⟨t, o⟩) following activates disables

theorem comparedText_eq_savedText
    (faithful : ∀ f before, f :: before <:+ since → f.renewed? ≠ none →
      liveText d text before = savedText d text before) :
    comparedText d text text since = savedText d text since := by
  induction since with
  | nil => rfl
  | cons f before ih =>
    have earlier := ih fun g rest within =>
      faithful g rest (within.trans (List.suffix_cons f before))
    rw [comparedText, savedText, earlier]
    cases f.save? with
    | some saved => rfl
    | none =>
      dsimp only
      split
      · next renewed =>
        exact faithful f before (List.suffix_refl _) (Option.isSome_iff_ne_none.mp renewed)
      · rfl

end

/-- A document is activated; afterwards no other one is and the session is not disabled. A save of
the document makes it stale exactly if the change from the compared text is significant, or it was
stale before. The compared text is the one of the last save if the activation text was the first
baseline and the text in the editor was the saved one whenever new costs came in. -/
theorem stale_after_save_of_active {config : Config} {directory : String} {extract : Extractor}
    {ledger : Ledger} {cache output : Folder} {since earlier : List Episode} {first e : Episode}
    {s : Session} {d : Document} {text saved : String} {c : Circumstances}
    (run : Run (.new config directory extract ledger cache output)
      (e :: since ++ first :: earlier) s)
    (activation : first.occurrence = .request (.documentActivated d text) c)
    (quiet : ∀ f ∈ since, f.activates = false ∧ f.disables = false)
    (save : e.save? = some (d, saved))
    (shows : e.session.mode ≠ .disabled) :
    (d ∈ s.stale ↔ d ∈ e.session.stale ∨
      (Change.check e.session.extract
        (comparedText d text ((first.next.baselines.find? d).getD text) since) saved
        e.session.ledger.whitelist).isSignificant = true) ∧
    ((first.next.baselines.find? d).getD text = text →
      (∀ f before, f :: before <:+ since → f.renewed? ≠ none →
        liveText d text before = savedText d text before) →
      comparedText d text ((first.next.baselines.find? d).getD text) since =
        savedText d text since) := by
  cases run with
  | @next _ t o run follows =>
    -- This is what gives the document a baseline at its activation, in a mode that shows costs.
    have coherent : first.next.Coherent := by
      obtain ⟨past, next⟩ := run.of_suffix (List.suffix_append since (first :: earlier))
      exact (coherent_ready (tracked_new config directory extract ledger cache output)
        (Session.coherent_new config directory extract ledger cache output) (past.next next)).1
    have following := following_run run (following_activation coherent activation) quiet
    refine ⟨?_, fun same faithful => ?_⟩
    · rw [show d ∈ (t.meet o).2.stale ↔ _ from stale_of_save save, or_comm,
        Session.savesSignificantly_eq (Mode.isEnabled_iff.mpr shows) (following.compares shows)]
    · rw [same]
      exact comparedText_eq_savedText faithful

theorem stale_after_save_of_analysed :
    ∃ since first e s, Run Sample.session (e :: since ++ [first]) s ∧ e.session.mode = .file ∧
      Sample.document ∉ e.session.stale ∧ Sample.document ∈ s.stale := by
  let analysed := [Sample.completion (Sample.analysis 1 (.enable .file)),
    Sample.request .enableForFile]
  let activation := Sample.request (.documentActivated Sample.document "class A \x7b")
  let first := Episode.mk Sample.session activation
  obtain ⟨past, isPast⟩ : ∃ past, past = traced first.next analysed := ⟨_, rfl⟩
  have before : Run Sample.session (past.1 ++ [first]) past.2 := by
    rw [isPast]
    exact run_traced_after (by decide +kernel)
  have quiet : ∀ f ∈ past.1, f.activates = false ∧ f.disables = false := by
    rw [isPast]
    decide +kernel
  have shows : past.2.mode = .file := by
    rw [isPast]
    decide +kernel
  have compared : (Change.check past.2.extract
      (comparedText Sample.document "class A \x7b"
        ((first.next.baselines.find? Sample.document).getD "class A \x7b") past.1) "class B \x7b"
      past.2.ledger.whitelist).isSignificant = true := by
    subst isPast
    decide +kernel
  let e := Episode.mk past.2 Sample.significantSave
  have run : Run Sample.session (e :: past.1 ++ [first]) e.next :=
    before.next (o := Sample.significantSave) trivial
  have law := (stale_after_save_of_active run rfl quiet rfl (shows ▸ Mode.noConfusion)).1
  refine ⟨past.1, first, e, e.next, run, shows, ?_, law.mpr (.inr compared)⟩
  subst isPast
  decide +kernel

namespace Sample

def changedUnsaved : List Occurrence :=
  [request .enableForFile, request (.documentChanged document "class B \x7b"),
    completion ⟨2, .enable .project, none,
      ⟨.project ["make"], "/tmp/infer-out/project", "/work"⟩⟩,
    request (.enableForProject "make"), completion (analysis 1 (.enable .file)),
    request .enableForFile]

end Sample

/-- The change that was saved then is not noticed. -/
theorem unsaved_change_lost :
    ∃ since first e s, Run Sample.session (e :: since ++ [first]) s ∧
      first.occurrence = Sample.request (.documentActivated Sample.document "class A \x7b") ∧
      (∀ f ∈ since, f.activates = false ∧ f.disables = false) ∧
      e.occurrence = Sample.significantSave ∧ e.session.mode ≠ .disabled ∧
      (Change.check e.session.extract (savedText Sample.document "class A \x7b" since)
        "class B \x7b" e.session.ledger.whitelist).isSignificant = true ∧
      Sample.document ∉ s.stale := by
  let activation := Sample.request (.documentActivated Sample.document "class A \x7b")
  let first := Episode.mk Sample.session activation
  obtain ⟨past, isPast⟩ : ∃ past, past = traced first.next Sample.changedUnsaved := ⟨_, rfl⟩
  have before : Run Sample.session (past.1 ++ [first]) past.2 := by
    rw [isPast]
    exact run_traced_after (by decide +kernel)
  let e := Episode.mk past.2 Sample.significantSave
  have run : Run Sample.session (e :: past.1 ++ [first]) e.next :=
    before.next (o := Sample.significantSave) trivial
  refine ⟨past.1, first, e, e.next, run, rfl, ?quiet, rfl, ?lost⟩
  case quiet =>
    rw [isPast]
    decide +kernel
  case lost =>
    subst isPast
    decide +kernel

end CostWatch

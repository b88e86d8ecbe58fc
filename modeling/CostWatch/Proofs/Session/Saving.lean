import CostWatch.Proofs.Session.Step
import CostWatch.Proofs.Table

/-!
What a save leaves behind, and a second save of the same text.

The saved text is the baseline afterwards, whatever has come of the save, and the document is stale
if the change was significant. So there is nothing left to be compared when it is saved again.
-/

set_option autoImplicit false

namespace CostWatch.Session

section
variable (s : Session) (d : Document) (text : String)

/-- A save only differs from its comparison in the analysis that it may start. -/
theorem documentSaved_cases :
    ∃ outcome running nextId,
      s.documentSaved d text = (.ok outcome, { s.saved d text with running, nextId }) := by
  rw [documentSaved_eq]
  rcases (s.edited d text).compareSaved_cases d text (s.isActive d) with
    ⟨change, told⟩ | ⟨purpose, document, job, _, _, _, _, started⟩
  · exact ⟨_, _, _, told⟩
  · exact ⟨_, _, _, started⟩

theorem savesSignificantly_iff {s : Session} {d : Document} {text : String}
    (shows : s.mode ≠ .disabled) :
    s.savesSignificantly d text = true ↔ ∃ baseline, s.baselines.find? d = some baseline ∧
      (Change.check s.extract baseline text s.ledger.whitelist).isSignificant = true := by
  rw [savesSignificantly, Mode.isEnabled_iff.mpr shows]
  cases s.baselines.find? d <;> simp

theorem active_edited_edited :
    ((s.edited d text).edited d text).active = (s.edited d text).active := by
  simp only [edited, Option.map_map]
  congr 1
  funext a
  by_cases same : a.document = d <;> simp [same]

theorem edited_of_active {s : Session} {d : Document} {text : String}
    (same : (s.edited d text).active = s.active) : s.edited d text = s := by
  have whole : s.edited d text = { s with active := (s.edited d text).active } := rfl
  rw [whole, same]

theorem documentSaved_of_baseline {s : Session} {d : Document} {text : String}
    (remembered : s.edited d text = s)
    (compared : s.mode.isEnabled = true → s.baselines.find? d = some text) :
    s.documentSaved d text = (.ok .nothing, s) := by
  rw [documentSaved_eq, remembered, compareSaved]
  split
  · next shows =>
    have found := compared shows
    have same : (Change.check s.extract text text s.ledger.whitelist).isSignificant = false := by
      rw [Change.check, if_pos rfl]
      rfl
    simp only [found, Table.put_of_find? found, same, Bool.false_eq_true, if_false]
    rfl
  · rfl

end

/-- While the mode is enabled, a save makes the saved text the baseline of its document, whatever
comes of it, and leaves the other baselines. The document is marked as stale exactly if the text
differs significantly from the baseline before. To save the same text again does nothing at all, and
that in every mode. -/
theorem save_idempotent (s : Session) (d : Document) (text : String) (c c' : Circumstances) :
    ∃ outcome next, s.handle (.documentSaved d text) c = (.ok outcome, next) ∧
      (s.mode ≠ .disabled →
        (∀ e, next.baselines.find? e = if e = d then some text else s.baselines.find? e) ∧
        ∀ e, e ∈ next.stale ↔ e ∈ s.stale ∨ e = d ∧
          ∃ baseline, s.baselines.find? d = some baseline ∧
            (Change.check s.extract baseline text s.ledger.whitelist).isSignificant = true) ∧
      next.handle (.documentSaved d text) c' = (.ok .nothing, next) := by
  obtain ⟨outcome, running, nextId, saved⟩ := s.documentSaved_cases d text
  refine ⟨outcome, _, saved, fun shows => ⟨fun e => ?_, fun e => ?_⟩, ?_⟩
  · exact find?_saved shows d e text
  · refine mem_stale_saved.trans ?_
    rw [savesSignificantly_iff shows, or_comm, @eq_comm _ d e]
  · refine documentSaved_of_baseline ?_ fun shows => ?_
    · exact edited_of_active (s.active_edited_edited d text)
    · have shows : s.mode ≠ .disabled := Mode.isEnabled_iff.mp shows
      exact (find?_saved shows d d text).trans (if_pos rfl)

theorem save_idempotent_of_analysed :
    ∃ history s outcome next, Run Sample.session history s ∧ s.mode = .file ∧
      s.handle (.documentSaved Sample.document "class B \x7b") Sample.circumstances =
        (.ok outcome, next) ∧
      Sample.document ∉ s.stale ∧ Sample.document ∈ next.stale ∧
      next.baselines.find? Sample.document = some "class B \x7b" ∧
      next.handle (.documentSaved Sample.document "class B \x7b") Sample.circumstances =
        (.ok .nothing, next) := by
  let analysed := [Sample.completion (Sample.analysis 1 (.enable .file)),
    Sample.request .enableForFile,
    Sample.request (.documentActivated Sample.document "class A \x7b")]
  obtain ⟨past, isPast⟩ : ∃ past, past = traced Sample.session analysed := ⟨_, rfl⟩
  have run : Run Sample.session past.1 past.2 := by
    rw [isPast]
    exact run_traced (by decide +kernel)
  have shows : past.2.mode = .file := by
    rw [isPast]
    decide +kernel
  have fresh : Sample.document ∉ past.2.stale := by
    rw [isPast]
    decide +kernel
  have found : past.2.baselines.find? Sample.document = some "class A \x7b" := by
    rw [isPast]
    decide +kernel
  have significant : (Change.check past.2.extract "class A \x7b" "class B \x7b"
      past.2.ledger.whitelist).isSignificant = true := by
    rw [isPast]
    decide +kernel
  obtain ⟨outcome, next, saved, left, again⟩ := save_idempotent past.2 Sample.document
    "class B \x7b" Sample.circumstances Sample.circumstances
  obtain ⟨baselines, stale⟩ := left (shows ▸ Mode.noConfusion)
  exact ⟨past.1, past.2, outcome, next, run, shows, saved, fresh,
    (stale _).mpr (.inr ⟨rfl, _, found, significant⟩), (baselines _).trans (if_pos rfl), again⟩

end CostWatch.Session

import CostWatch.Proofs.Session.Baseline
import CostWatch.Proofs.Session.Completion

/-!
Which baselines change when an analysis is taken up.

It is the baseline of the document that the editor shows then, whichever document was analysed. So
the analysis of one document leaves the baselines of all others alone only if that document is still
shown, or if the text in the editor is the one with which the next save would be compared anyway.
-/

set_option autoImplicit false

namespace CostWatch

namespace Session
variable {s : Session} {a : Analysis}

theorem baselines_of_success (running : s.running = some ⟨a.id, false⟩)
    {result : Except Failure (List UInt8)} {c : Circumstances} (success : ¬s.Fails a c result) :
    (s.complete a result c).2.baselines = refreshed s.baselines s.active := by
  rcases complete_of_use running result c with ⟨f, failure, _⟩ |
    ⟨_, _, records, _, ledger, _, _, _, completed⟩
  · exact absurd (fails_iff.mpr (by rw [failure]; rfl)) success
  · rw [completed]
    rfl

theorem kept_refreshed_iff {baselines : Baselines} {active : Option ActiveDocument}
    {d : Document} :
    (∀ e, e ≠ d → (refreshed baselines active).find? e = baselines.find? e) ↔
      ∀ shown, active = some shown →
        shown.document = d ∨ baselines.find? shown.document = some shown.text := by
  simp only [find?_refreshed]
  cases active with
  | none => simp
  | some shown =>
    simp only [Option.some.injEq, forall_eq', ite_eq_right_iff]
    constructor
    · intro kept
      by_cases same : shown.document = d
      · exact .inl same
      · exact .inr (kept shown.document same rfl).symm
    · rintro (same | found) e other rfl
      · exact absurd same other
      · exact found.symm

end Session

/-- The analysis of one document is taken up. Afterwards the text in the editor is the baseline of
the document that is shown, and all other baselines are what they were. So those of the documents
that were not analysed are what they were exactly if the analysed document is shown, or the text in
the editor is the baseline already: since the document is shown, it is the text compared with the
next save. -/
theorem baselines_after_analysis {config : Config} {directory : String} {extract : Extractor}
    {ledger : Ledger} {cache output : Folder} {history : List Episode} {s t : Session}
    {a : Analysis} {result : Except Failure (List UInt8)} {c : Circumstances} {d : Document}
    (run : Run (.new config directory extract ledger cache output)
      (⟨s, .completion a result c⟩ :: history) t)
    (analysed : a.document = some d) (running : s.running = some ⟨a.id, false⟩)
    (success : ¬s.Fails a c result) :
    (∀ e, t.baselines.find? e =
      match s.active with
      | some shown => if e = shown.document then some shown.text else s.baselines.find? e
      | none => s.baselines.find? e) ∧
    ((∀ e, a.document ≠ some e → t.baselines.find? e = s.baselines.find? e) ↔
      ∀ shown, s.active = some shown →
        shown.document = d ∨ s.baselines.find? shown.document = some shown.text) ∧
    ∀ since first earlier shown text c', history = since ++ first :: earlier →
      first.occurrence = .request (.documentActivated shown text) c' →
      (∀ f ∈ since, f.activates = false ∧ f.disables = false) → s.mode ≠ .disabled →
      ((∀ e, a.document ≠ some e → t.baselines.find? e = s.baselines.find? e) ↔
        shown = d ∨ liveText shown text since =
          comparedText shown text ((first.next.baselines.find? shown).getD text) since) := by
  cases run with
  | next before handed =>
    have refreshed : (s.meet (.completion a result c)).2.baselines =
        Session.refreshed s.baselines s.active := Session.baselines_of_success running success
    have kept : (∀ e, a.document ≠ some e →
          (s.meet (.completion a result c)).2.baselines.find? e = s.baselines.find? e) ↔
        ∀ shown, s.active = some shown →
          shown.document = d ∨ s.baselines.find? shown.document = some shown.text := by
      rw [refreshed, analysed, ← Session.kept_refreshed_iff]
      simp only [ne_eq, Option.some.injEq, eq_comm]
    refine ⟨?_, kept, ?_⟩
    · intro e
      rw [refreshed]
      exact Session.find?_refreshed s.baselines s.active e
    · rintro since first earlier shown text c' rfl activation quiet enabled
      have coherent : first.next.Coherent := by
        obtain ⟨past, next⟩ := before.of_suffix (List.suffix_append since (first :: earlier))
        exact (coherent_of_run (past.next next)).1
      have following := following_run before (following_activation coherent activation) quiet
      rw [kept, following.active]
      simp [following.compares enabled, eq_comm]

namespace Sample

def other : Document := ⟨"/work/B.java"⟩

def shownOther : List Occurrence :=
  [request (.documentActivated other "class B \x7b"), request .reExecute,
    completion (analysis 1 (.enable .file)), request .enableForFile,
    request (.documentActivated document "class A \x7b")]

def ended : Occurrence := completion (analysis 2 .reExecute)

end Sample

theorem baselines_after_analysis_unedited :
    ∃ history s t, Run Sample.session (⟨s, Sample.ended⟩ :: history) t ∧
      s.active = some ⟨Sample.other, "class B \x7b"⟩ ∧ t.mode = .file ∧
      ∀ e, some Sample.document ≠ some e → t.baselines.find? e = s.baselines.find? e := by
  obtain ⟨past, isPast⟩ : ∃ past, past = traced Sample.session Sample.shownOther := ⟨_, rfl⟩
  have before : Run Sample.session past.1 past.2 := by
    rw [isPast]
    exact run_traced (by decide +kernel)
  have follows : Sample.ended.Follows past.1 := by
    rw [isPast]
    decide +kernel
  have run : Run Sample.session (⟨past.2, Sample.ended⟩ :: past.1) (past.2.meet Sample.ended).2 :=
    before.next follows
  have facts : past.2.running = some ⟨(Sample.analysis 2 .reExecute).id, false⟩ ∧
      ¬(past.2.failure? (Sample.analysis 2 .reExecute) Sample.circumstances
        (.ok [91, 93])).isSome = true ∧
      past.2.active = some ⟨Sample.other, "class B \x7b"⟩ ∧
      past.2.baselines.find? Sample.other = some "class B \x7b" ∧
      (past.2.meet Sample.ended).2.mode = .file := by
    rw [isPast]
    decide +kernel
  obtain ⟨running, succeeds, active, compared, mode⟩ := facts
  have success := mt Session.fails_iff.mp succeeds
  refine ⟨past.1, past.2, _, run, active, mode, ?kept⟩
  case kept =>
    apply (baselines_after_analysis run rfl running success).2.1.mpr
    intro shown isShown
    cases active.symm.trans isShown
    exact .inr compared

/-- The other document is edited while the first one is analysed again. Then the edited text is its
baseline, though it is neither saved nor analysed. -/
theorem baseline_of_other_replaced :
    ∃ history s t, Run Sample.session (⟨s, Sample.ended⟩ :: history) t ∧
      (Sample.analysis 2 .reExecute).document = some Sample.document ∧
      s.running = some ⟨2, false⟩ ∧
      ¬s.Fails (Sample.analysis 2 .reExecute) Sample.circumstances (.ok [91, 93]) ∧
      Sample.other ≠ Sample.document ∧
      s.baselines.find? Sample.other = some "class B \x7b" ∧
      t.baselines.find? Sample.other = some "class C \x7b" := by
  obtain ⟨past, isPast⟩ : ∃ past, past = traced Sample.session
    (Sample.request (.documentChanged Sample.other "class C \x7b") :: Sample.shownOther) := ⟨_, rfl⟩
  have before : Run Sample.session past.1 past.2 := by
    rw [isPast]
    exact run_traced (by decide +kernel)
  have follows : Sample.ended.Follows past.1 := by
    rw [isPast]
    decide +kernel
  refine ⟨past.1, past.2, _, before.next follows, rfl, ?_⟩
  rw [Session.fails_iff]
  subst isPast
  decide +kernel

end CostWatch

import CostWatch.Proofs.Session.Screen

/-!
Whether the stale mark on the screen is true: that of the last decorations of a document, unless
everything was cleared since.

It can be out of date for two reasons. A significant save that starts an analysis marks the document
and sends no decorations, and the analysis may fail. And a document may become active with a text
that does not parse, for which no decorations are sent either.
-/

set_option autoImplicit false

namespace CostWatch

/-! Marks on the screen -/

def Event.markAfter (d : Document) (mark : Option Bool) : Event → Option Bool
  | .decorations document stale _ => if document = d then some stale else mark
  | .cleared _ => none
  | _ => mark

/-- The stale mark of a document on the screen, after a history. -/
def mark? (d : Document) : List Episode → Option Bool
  | [] => none
  | e :: earlier => e.events.foldl (Event.markAfter d) (mark? d earlier)

namespace Session

def reads (s : Session) (text : String) : Bool :=
  (s.extract text).toBool

def decorated? (s : Session) : Option Document :=
  (s.active.filter fun a => s.reads a.text).map ActiveDocument.document

theorem decorations_eq (s : Session) :
    ∃ items, s.decorations = s.decorated?.toList.map fun d => .decorations d (s.isStale d) items := by
  unfold decorations decorated? reads
  cases s.active with
  | none => exact ⟨[], rfl⟩
  | some a =>
    cases found : s.extract a.text with
    | error fault => exact ⟨[], by simp [Option.filter, found, Except.toBool]⟩
    | ok ds => exact ⟨_, by simp [Option.filter, found, Except.toBool]; rfl⟩

end Session

namespace Episode
variable (e : Episode) (d : Document)

def Sends (mark : Bool) : Prop :=
  ∃ items, .decorations d mark items ∈ e.events

def restarts : Bool :=
  e.save?.any (·.1 = d) && e.handedOut.isSome

end Episode

section
variable {e : Episode} {d : Document} {mark : Bool} {history : List Episode}

theorem sends_iff : e.Sends d mark ↔
    e.shows = true ∧ e.next.decorated? = some d ∧ mark = e.next.isStale d := by
  obtain ⟨items, same⟩ := e.next.decorations_eq
  unfold Episode.Sends
  simp only [decorations_mem_events, same]
  cases e.next.decorated? with
  | none => simp
  | some document =>
    simp only [Option.toList_some, List.map_cons, List.map_nil, List.mem_singleton,
      Event.decorations.injEq, Option.some.injEq, exists_and_left, exists_eq, and_true]
    refine and_congr_right fun _ => ?_
    rw [eq_comm]
    exact and_congr_right fun own => by rw [own]

theorem mark?_cons : mark? d (e :: history) =
    if e.shows then if e.next.decorated? = some d then some (e.next.isStale d) else mark? d history
    else if e.blanks then none else mark? d history := by
  have seen (mark : Option Bool) : e.events.foldl (Event.markAfter d) mark =
      (e.events.filter Event.onScreen).foldl (Event.markAfter d) mark := by
    rw [List.foldl_filter]
    congr
    funext mark event
    cases event <;> rfl
  rw [mark?, seen, filter_events]
  cases e.shows with
  | true =>
    obtain ⟨items, same⟩ := e.next.decorations_eq
    rw [same]
    cases e.next.decorated? with
    | none => rfl
    | some document =>
      by_cases own : document = d
      · simp [Event.markAfter, own]
      · simp [Event.markAfter, own]
  | false => cases e.blanks <;> rfl

theorem mark?_of_disabled {config : Config} {directory : String} {extract : Extractor}
    {ledger : Ledger} {cache output : Folder} {s : Session}
    (run : Run (.new config directory extract ledger cache output) history s)
    (disabled : s.mode = .disabled) : mark? d history = none := by
  induction run with
  | start => rfl
  | @next history s o run follows ih =>
    have ready := (coherent_of_run run).2
    have hidden : (Episode.mk s o).shows = false := by
      rw [Bool.eq_false_iff]
      exact fun shown => enabled_of_shows (e := ⟨s, o⟩) follows ready shown disabled
    rw [mark?_cons, hidden]
    cases blank : (Episode.mk s o).blanks with
    | true => rfl
    | false =>
      by_cases before : s.mode = .disabled
      · exact ih before
      · -- Only the request to disable does disable, and it clears the screen.
        obtain ⟨c, outcome, rfl, answered⟩ := disables_of_step (s.step_meet o)
          (fun a result c ended running =>
            ready a (known_of_follows (e := ⟨s, o⟩) follows (by rw [Episode.completed, ended]))
              running)
          before disabled
        have blanks : (Episode.mk s (.request .disable c)).blanks = true := by
          rw [Episode.blanks, show (Episode.mk s (.request .disable c)).answer = _ from answered]
        cases blank.symm.trans blanks

/-! Texts that cannot be compared -/

theorem isSignificant_of_unreadable {extract : Extractor} {baseline text : String}
    {whitelist : Whitelist} (other : baseline ≠ text)
    (unreadable : (extract baseline).toBool = false ∨ (extract text).toBool = false) :
    (Change.check extract baseline text whitelist).isSignificant = true := by
  unfold Change.check
  rw [if_neg other]
  cases first : extract baseline with
  | error fault => rfl
  | ok before =>
    cases second : extract text with
    | error fault => rfl
    | ok after => simp [first, second, Except.toBool] at unreadable

/-- Neither the text of the document that is active nor its baseline can be read. So the next save
that can be read shows a significant change. -/
structure Session.Unread (s : Session) (d : Document) : Prop where
  live : ∃ text, s.active = some ⟨d, text⟩ ∧ s.reads text = false
  compared : ∃ baseline, s.baselines.find? d = some baseline ∧ s.reads baseline = false

theorem Session.extract_step {s t : Session} {o : Occurrence} {answer : Except Failure Outcome}
    (step : s.Step o answer t) : t.extract = s.extract := by
  cases step <;> rfl

theorem reads_next (e : Episode) (text : String) : e.next.reads text = e.session.reads text := by
  have same : e.next.extract = e.session.extract :=
    Session.extract_step (e.session.step_meet e.occurrence)
  rw [Session.reads, same]
  rfl

theorem reads_run {start s : Session} (run : Run start history s) (text : String) :
    s.reads text = start.reads text := by
  refine run.keeps (fun t => t.reads text = start.reads text) rfl fun t o same => ?_
  exact (reads_next ⟨t, o⟩ text).trans same

/-! What happens to a mark -/

theorem reads_of_silent {text : String} (shown : e.shows = true) (silent : ∀ mark, ¬e.Sends d mark)
    (active : e.next.active = some ⟨d, text⟩) : e.next.reads text = false := by
  by_contra readable
  refine silent (e.next.isStale d) (sends_iff.mpr ⟨shown, ?_, rfl⟩)
  rw [Session.decorated?, active]
  simpa [Option.filter] using readable

theorem shows_of_edit {edited : Document} {text : String} (edit : e.edit? = some (edited, text))
    (save : e.save? = none) : e.shows = (e.session.mode.isEnabled && e.session.isActive edited) := by
  obtain ⟨s, o⟩ := e
  cases o with
  | request r c =>
    cases r with
    | documentChanged =>
      cases edit
      rfl
    | documentSaved => cases save
    | _ => cases edit
  | _ => cases edit

theorem shows_of_save {saved : Document} {text : String} (save : e.save? = some (saved, text)) :
    e.shows = (e.session.savesSignificantly saved text && e.session.isActive saved &&
        e.handedOut.isNone) ∧
      (e.handedOut.isSome = true →
        e.session.savesSignificantly saved text = true ∧ e.session.isActive saved = true) := by
  obtain ⟨s, o⟩ := e
  cases o with
  | request r c =>
    cases r with
    | documentSaved d written =>
      cases save
      refine ⟨rfl, fun started => ?_⟩
      have step := s.step_documentSaved saved text c
      have answered : (Episode.mk s (.request (.documentSaved saved text) c)).answer =
          (s.documentSaved saved text).1 := rfl
      generalize (s.documentSaved saved text).1 = answer at step answered
      generalize (s.documentSaved saved text).2 = next at step
      cases step with
      | refused asks => cases asks
      | started _ _ starts => cases starts
      | exempted exempts => cases exempts
      | opened opens => cases opens
      | saved =>
        rw [handedOut_of_answer answered] at started
        cases started
      | savedAndStarted idle starts active significant => exact ⟨significant, active⟩
    | _ => cases save
  | _ => cases save

/-- What is known of a document since an episode `m`, while it stays active and no decorations of it
are sent: whether it is stale, unless neither its text nor its baseline can be read. -/
structure Unseen (d : Document) (since : List Episode) (m : Episode) (s : Session) : Prop where
  active : ∃ text, s.active = some ⟨d, text⟩
  quiet : ∀ f ∈ since, f.activates = false ∧ ∀ mark, ¬f.Sends d mark
  known : s.isStale d = (m.next.isStale d || since.any (·.restarts d)) ∨ s.Unread d

section
variable {since : List Episode} {m : Episode}

theorem known_next (restarts : e.restarts d = false)
    (stale : d ∈ e.next.stale ↔ d ∈ e.session.stale)
    (known : e.session.isStale d = (m.next.isStale d || since.any (·.restarts d))) :
    e.next.isStale d = (m.next.isStale d || (e :: since).any (·.restarts d)) := by
  have same : e.next.isStale d = e.session.isStale d := by
    rw [Bool.eq_iff_iff]
    exact List.contains_iff_mem.trans (stale.trans List.contains_iff_mem.symm)
  rw [same, known, List.any_cons, restarts, Bool.false_or]

theorem Session.Unread.next (unread : e.session.Unread d)
    (active : e.next.active = e.session.active)
    (baselines : e.next.baselines.find? d = e.session.baselines.find? d) : e.next.Unread d := by
  obtain ⟨⟨text, shown, unreadable⟩, ⟨baseline, found, old⟩⟩ := unread
  exact ⟨⟨text, active.trans shown, (reads_next e text).trans unreadable⟩,
    ⟨baseline, baselines.trans found, (reads_next e baseline).trans old⟩⟩

/-- A significant save marks the document and starts an analysis, since otherwise it would be shown;
or else its text cannot be read. An insignificant save changes nothing. -/
theorem known_of_save {text : String} (save : e.save? = some (d, text))
    (enabled : e.session.mode ≠ .disabled) (isActive : e.session.isActive d = true)
    (active : e.next.active = some ⟨d, text⟩) (found : e.next.baselines.find? d = some text)
    (silent : ∀ mark, ¬e.Sends d mark)
    (known : e.session.isStale d = (m.next.isStale d || since.any (·.restarts d)) ∨
      e.session.Unread d) :
    e.next.isStale d = (m.next.isStale d || (e :: since).any (·.restarts d)) ∨ e.next.Unread d := by
  obtain ⟨shown, started⟩ := shows_of_save save
  have marks := stale_of_save save
  rw [isActive, Bool.and_true] at shown
  by_cases significant : e.session.savesSignificantly d text = true
  · cases begun : e.handedOut.isSome with
    | true =>
      have marked : e.next.isStale d = true :=
        List.contains_iff_mem.mpr (marks.mpr (.inl significant))
      exact .inl (by simp [marked, Episode.restarts, save, begun])
    | false =>
      rw [significant, Bool.true_and, ← Option.not_isSome, begun] at shown
      have unreadable := reads_of_silent shown silent active
      exact .inr ⟨⟨text, active, unreadable⟩, ⟨text, found, unreadable⟩⟩
  · have notBegun : ¬e.handedOut.isSome = true := fun begun => significant (started begun).1
    refine known.imp (fun known => ?_) fun unread => ?_
    · exact known_next (by simp [Episode.restarts, notBegun]) (by simp [marks, significant]) known
    · -- The saved text is the baseline, which cannot be read.
      obtain ⟨baseline, compared, old⟩ := unread.compared
      have same : baseline = text := by
        by_contra other
        rw [Session.savesSignificantly_eq (Mode.isEnabled_iff.mpr enabled) compared] at significant
        exact significant (isSignificant_of_unreadable other (.inl old))
      subst same
      have unreadable := (reads_next e baseline).trans old
      exact ⟨⟨baseline, active, unreadable⟩, ⟨baseline, found, unreadable⟩⟩

theorem unseen_next (unseen : Unseen d since m e.session)
    (enabled : e.session.mode ≠ .disabled) (activates : e.activates = false)
    (disables : e.disables = false) (silent : ∀ mark, ¬e.Sends d mark) :
    Unseen d (e :: since) m e.next := by
  obtain ⟨⟨live, active⟩, quiet, known⟩ := unseen
  have quiet : ∀ f ∈ e :: since, f.activates = false ∧ ∀ mark, ¬f.Sends d mark :=
    List.forall_mem_cons.mpr ⟨⟨activates, silent⟩, quiet⟩
  have shows := Mode.isEnabled_iff.mpr enabled
  have isActive : e.session.isActive d = true := by simp [Session.isActive, active]
  cases bearing e with
  | none edit save renewed notDisabled mode sameActive baselines stale =>
    refine ⟨⟨live, sameActive.trans active⟩, quiet, known.imp (fun known => ?_) fun unread => ?_⟩
    · exact known_next (by simp [Episode.restarts, save]) (by rw [stale]) known
    · exact unread.next sameActive (by rw [baselines])
  | renewed documents edit save renewed notDisabled sameActive baselines stale =>
    -- The text is its baseline now, and since nothing is sent it cannot be read.
    have same := sameActive.trans active
    have unreadable := reads_of_silent (shows_of_renewed renewed) silent same
    refine ⟨⟨live, same⟩, quiet, .inr ⟨⟨live, same, unreadable⟩, ⟨live, ?_, unreadable⟩⟩⟩
    rw [baselines, Session.find?_refreshed, active]
    exact if_pos rfl
  | changed document text edit save renewed notDisabled mode nextActive baselines stale =>
    rw [Session.active_edited active] at nextActive
    refine ⟨⟨_, nextActive⟩, quiet, known.imp (fun known => ?_) fun unread => ?_⟩
    · exact known_next (by simp [Episode.restarts, save]) (by rw [stale]) known
    · by_cases own : document = d
      · -- The new text cannot be read either, since it would be shown.
        subst own
        rw [if_pos rfl] at nextActive
        have shown : e.shows = true := by rw [shows_of_edit edit save, shows, isActive]; rfl
        obtain ⟨baseline, found, old⟩ := unread.compared
        exact ⟨⟨text, nextActive, reads_of_silent shown silent nextActive⟩,
          ⟨baseline, by rw [baselines, found], (reads_next e baseline).trans old⟩⟩
      · rw [if_neg own] at nextActive
        exact unread.next (nextActive.trans active.symm) (by rw [baselines])
  | saved document text edit save renewed notDisabled mode nextActive baselines stale =>
    rw [Session.active_edited active] at nextActive
    have found := Session.find?_saved enabled document d text
    rw [← baselines] at found
    refine ⟨⟨_, nextActive⟩, quiet, ?_⟩
    by_cases own : document = d
    · subst own
      rw [if_pos rfl] at nextActive found
      exact known_of_save save enabled isActive nextActive found silent known
    · -- A save of another document touches neither the text nor the mark.
      rw [if_neg own] at nextActive
      rw [if_neg (Ne.symm own)] at found
      refine known.imp (fun known => ?_) fun unread => ?_
      · have marks : d ∈ e.next.stale ↔ d ∈ e.session.stale := by
          rw [stale, Session.mem_stale_saved]
          simp [own]
        exact known_next (by simp [Episode.restarts, save, own]) marks known
      · exact unread.next (nextActive.trans active.symm) found
  | activated now save renewed notDisabled stale => cases activates.symm.trans now
  | disabled now save stale => cases disables.symm.trans now

end

/-! Marks over a run -/

def Episode.OpensUnread (e : Episode) (d : Document) : Prop :=
  ∃ text c, e.occurrence = .request (.documentActivated d text) c ∧ e.session.reads text = false

theorem active_before {text : String} (activates : e.activates = false)
    (disables : e.disables = false) (active : e.next.active = some ⟨d, text⟩) :
    ∃ live, e.session.active = some ⟨d, live⟩ := by
  have edited {document : Document} {written : String}
      (same : e.next.active = (e.session.edited document written).active) :
      ∃ live, e.session.active = some ⟨d, live⟩ := by
    obtain ⟨⟨other, live⟩, before, now⟩ := Option.map_eq_some_iff.mp (same.symm.trans active)
    dsimp only at now
    split at now
    · next own =>
      cases now
      exact ⟨live, own ▸ before⟩
    · cases now
      exact ⟨text, before⟩
  cases bearing e with
  | none edit save renewed notDisabled mode same => exact ⟨text, same.symm.trans active⟩
  | renewed documents edit save renewed notDisabled same => exact ⟨text, same.symm.trans active⟩
  | changed document written edit save renewed notDisabled mode same => exact edited same
  | saved document written edit save renewed notDisabled mode same => exact edited same
  | activated now => cases activates.symm.trans now
  | disabled now => cases disables.symm.trans now

theorem opensUnread_of_silent {text : String} (enabled : e.session.mode ≠ .disabled)
    (silent : ∀ mark, ¬e.Sends d mark) (activates : e.activates = true)
    (active : e.next.active = some ⟨d, text⟩) : e.OpensUnread d := by
  obtain ⟨s, o⟩ := e
  cases o with
  | request r c =>
    cases r with
    | documentActivated other opened =>
      have after : (Episode.mk s (.request (.documentActivated other opened) c)).next =
          s.activated other opened := congrArg Prod.snd (s.documentActivated_eq other opened)
      rw [after] at active
      cases active
      refine ⟨text, c, rfl, ?_⟩
      rw [← reads_next]
      refine reads_of_silent (d := d) (Mode.isEnabled_iff.mpr enabled) silent ?_
      rw [after]
      rfl
    | _ => cases activates
  | _ => cases activates

/-- Behind a mark on the screen is an episode that sent it, or after that one in which the document
became active with a text that cannot be read. -/
theorem unseen_of_run {config : Config} {directory : String} {extract : Extractor}
    {ledger : Ledger} {cache output : Folder} {s : Session} {text : String}
    (run : Run (.new config directory extract ledger cache output) history s)
    (enabled : s.mode ≠ .disabled) (active : s.active = some ⟨d, text⟩)
    (seen : mark? d history = some mark) :
    ∃ since m earlier, history = since ++ m :: earlier ∧ Unseen d since m s ∧
      (m.Sends d mark ∨ m.OpensUnread d ∧ mark? d earlier = some mark) := by
  induction run generalizing text with
  | start => cases seen
  | @next history s o run follows ih =>
    -- What is known begins anew with a mark that is sent and with an activation, and every other
    -- episode carries it on.
    let e := Episode.mk s o
    have begins : Unseen d [] e e.next :=
      ⟨⟨text, active⟩, by simp, .inl (by simp)⟩
    rw [mark?_cons] at seen
    by_cases sent : e.shows = true ∧ e.next.decorated? = some d
    · rw [if_pos sent.1, if_pos sent.2] at seen
      exact ⟨[], e, history, rfl, begins,
        .inl (sends_iff.mpr ⟨sent.1, sent.2, (Option.some.inj seen).symm⟩)⟩
    · have silent : ∀ mark, ¬e.Sends d mark := fun mark sends =>
        sent ((sends_iff.mp sends).imp_right And.left)
      have before : mark? d history = some mark := by
        split at seen
        · next shown => rwa [if_neg fun own => sent ⟨shown, own⟩] at seen
        · split at seen
          · cases seen
          · exact seen
      have enabledBefore : s.mode ≠ .disabled := by
        intro disabled
        cases (mark?_of_disabled run disabled).symm.trans before
      have disables : e.disables = false :=
        Bool.eq_false_iff.mpr fun disables => enabled (mode_of_disables disables)
      cases activates : e.activates with
      | true =>
        have opens := opensUnread_of_silent enabledBefore silent activates active
        exact ⟨[], e, history, rfl, begins, .inr ⟨opens, before⟩⟩
      | false =>
        obtain ⟨live, activeBefore⟩ := active_before activates disables active
        obtain ⟨since, m, earlier, rfl, unseen, origin⟩ := ih enabledBefore activeBefore before
        exact ⟨e :: since, m, earlier, rfl,
          unseen_next (e := e) unseen enabledBefore activates disables silent, origin⟩

end

/-- When the stale mark on the screen is true, in a mode that shows costs and while the text can be
read. If the mark was sent since the document became active, or with it, it is true exactly if it
says stale already or no save of the document has started an analysis since. If the document became
active later, with a text that cannot be read, the mark is true exactly if it says what held then or
what such a save has brought about. -/
theorem mark_true_iff {config : Config} {directory : String} {extract : Extractor}
    {ledger : Ledger} {cache output : Folder} {history : List Episode} {s : Session}
    {a : ActiveDocument} {mark : Bool}
    (run : Run (.new config directory extract ledger cache output) history s)
    (enabled : s.mode ≠ .disabled) (active : s.active = some a) (readable : s.reads a.text = true)
    (seen : mark? a.document history = some mark) :
    ∃ since m earlier, history = since ++ m :: earlier ∧
      (∀ f ∈ since, f.activates = false ∧ ∀ mark, ¬f.Sends a.document mark) ∧
      (m.Sends a.document mark ∧
          (mark = s.isStale a.document ↔
            mark = true ∨ ∀ f ∈ since, f.restarts a.document = false) ∨
        m.OpensUnread a.document ∧ mark? a.document earlier = some mark ∧
          (mark = s.isStale a.document ↔
            mark = (m.next.isStale a.document || since.any (·.restarts a.document)))) := by
  obtain ⟨d, text⟩ := a
  obtain ⟨since, m, earlier, split, unseen, origin⟩ := unseen_of_run run enabled active seen
  -- The text can be read, so that nothing has become uncertain.
  have known : s.isStale d = (m.next.isStale d || since.any (·.restarts d)) := by
    refine unseen.known.resolve_right fun unread => ?_
    obtain ⟨live, shown, unreadable⟩ := unread.live
    cases active.symm.trans shown
    cases readable.symm.trans unreadable
  refine ⟨since, m, earlier, split, unseen.quiet, origin.imp (fun sends => ⟨sends, ?_⟩) ?_⟩
  · obtain ⟨_, _, same⟩ := sends_iff.mp sends
    rw [known, ← same]
    cases mark <;> simp
  · rintro ⟨opens, before⟩
    exact ⟨opens, before, by rw [known]⟩

namespace Sample

def automatic : Session :=
  .new { workspace := { root := "/work" }, global := { reexecuteOnSignificantSave := true } } "/"
    extract (.new none) .absent .absent

def failed (a : Analysis) : Occurrence :=
  .completion a (.error (.analysisFailed (.exited "infer" "exit status: 1" ""))) circumstances

def save (text : String) : Occurrence := request (.documentSaved document text)

def analysedOnce : List Occurrence :=
  [completion (analysis 1 (.enable .file)), request .enableForFile,
    request (.documentActivated document "A")]

end Sample

theorem mark_true_after_failures :
    ∃ history s, Run Sample.automatic history s ∧ mark? Sample.document history = some true ∧
      true = s.isStale Sample.document := by
  let occurrences := [Sample.failed (Sample.analysis 3 .reExecute), Sample.save "C",
    Sample.failed (Sample.analysis 2 .reExecute), Sample.save "B",
    Sample.request .reExecute] ++ Sample.analysedOnce
  obtain ⟨past, isPast⟩ : ∃ past, past = traced Sample.automatic occurrences := ⟨_, rfl⟩
  have run : Run Sample.automatic past.1 past.2 := by
    rw [isPast]
    exact run_traced (by decide +kernel)
  have facts : past.2.mode ≠ .disabled ∧ past.2.active = some ⟨Sample.document, "C"⟩ ∧
      past.2.reads "C" = true ∧ mark? Sample.document past.1 = some true := by
    rw [isPast]
    decide +kernel
  obtain ⟨enabled, active, readable, seen⟩ := facts
  obtain ⟨since, m, earlier, split, _, sent | ⟨⟨text, _, _, unreadable⟩, _⟩⟩ :=
    mark_true_iff run enabled active readable seen
  · exact ⟨past.1, past.2, run, seen, sent.2.mpr (.inl rfl)⟩
  · have before := (run.of_suffix (split ▸ List.suffix_append since (m :: earlier))).1
    cases (reads_run before text).symm.trans unreadable

/-- The document is saved, which starts an analysis, and the analysis fails. The document is stale,
and nothing on the screen says so. -/
theorem mark_not_true :
    ∃ history s, Run Sample.automatic history s ∧ s.mode ≠ .disabled ∧ s.running = none ∧
      s.active = some ⟨Sample.document, "B"⟩ ∧ s.reads "B" = true ∧
      mark? Sample.document history = some false ∧ s.isStale Sample.document = true := by
  let occurrences := [Sample.failed (Sample.analysis 2 .reExecute), Sample.save "B"] ++
    Sample.analysedOnce
  have run := run_traced (show Feasible Sample.automatic occurrences by decide +kernel)
  exact ⟨_, _, run, by decide +kernel, by decide +kernel, by decide +kernel, by decide +kernel,
    by decide +kernel, by decide +kernel⟩

end CostWatch

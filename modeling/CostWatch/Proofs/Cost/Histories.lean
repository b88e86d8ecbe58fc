import CostWatch.Cost.History
import CostWatch.Proofs.Table
import Mathlib.Data.List.Destutter

/-!
Histories after any number of passes.

What the passes found for a method, one record a pass, becomes its history when every record is
left out that shows the cost of the one kept before it. The limit applies after each pass, and yet
only the end matters: of what a limit cuts off, nothing is ever compared again.
-/

set_option autoImplicit false

namespace CostWatch

structure Pass where
  records : List Record
  time : Moment

namespace Pass

/-- The record that counts for a method: the first one, should there be overloads. -/
def recordOf? (p : Pass) (id : MethodId) : Option Record :=
  p.records.find? (·.id = id)

def withoutOverloads (p : Pass) : Pass :=
  { p with records := p.records.eraseDupsBy fun r s => r.id = s.id }

end Pass

/-- What passes found for a method, each record with the time of its pass. -/
def found (id : MethodId) (passes : List Pass) : List Record :=
  passes.filterMap fun p => (p.recordOf? id).map (·.stamped p.time.text)

def Record.Differs (r s : Record) : Prop :=
  r.execution.polynomial ≠ s.execution.polynomial

instance : DecidableRel Record.Differs := fun r s =>
  inferInstanceAs (Decidable (r.execution.polynomial ≠ s.execution.polynomial))

theorem Record.differs_iff {r s : Record} : r.Differs s ↔ ¬r.sameExecution s = true := by
  rw [sameExecution, beq_iff_eq, Differs]

/-- The changes that passes found for a method, the most recent one first. -/
def changes (id : MethodId) (passes : List Pass) : History :=
  ((found id passes).destutter Record.Differs).reverse

namespace History

/-- The first entries of a history, as many as a limit allows. No limit allows less than one. -/
def atMost (limit : Option Nat) (h : History) : History :=
  match limit with
  | none => h
  | some n => h.take (max n 1)

theorem atMost_nil (limit : Option Nat) : atMost limit [] = [] := by
  cases limit <;> simp [atMost]

theorem head?_atMost (limit : Option Nat) (h : History) : (atMost limit h).head? = h.head? := by
  cases limit with
  | none => rfl
  | some n => rw [atMost, List.head?_take, if_neg (by omega)]

theorem atMost_cons_atMost (limit : Option Nat) (r : Record) (h : History) :
    atMost limit (r :: atMost limit h) = atMost limit (r :: h) := by
  cases limit with
  | none => rfl
  | some n =>
    have positive : 0 < max n 1 := by omega
    simp only [atMost, List.take_cons positive, List.take_take]
    rw [Nat.min_eq_left (Nat.sub_le _ _)]

end History

namespace HistoryBook

def recordPass (book : HistoryBook) (p : Pass) : HistoryBook :=
  book.commit (book.stage p.records p.time)

def recordAll (book : HistoryBook) (passes : List Pass) : HistoryBook :=
  passes.foldl recordPass book

theorem capped_eq {book : HistoryBook} {limit : Option Nat}
    (limited : book.limit = limit.map (max · 1)) (h : History) :
    book.capped h = History.atMost limit h := by
  unfold capped
  rw [limited]
  cases limit <;> rfl

/-! What one pass does -/

theorem stageRecord_eq (book : HistoryBook) (time : String) (r : Record) :
    book.stageRecord time r =
      if ∀ latest ∈ ((book.history? r.id).getD []).head?, latest.Differs r then
        some (r.id, book.capped (r.stamped time :: (book.history? r.id).getD []))
      else none := by
  unfold stageRecord
  cases (book.history? r.id).getD [] with
  | nil => simp
  | cons latest older =>
    simp only [List.head?_cons, Option.mem_some_iff, forall_eq']
    by_cases same : latest.sameExecution r = true
    · rw [if_pos same, if_neg (mt Record.differs_iff.mp (not_not_intro same))]
    · rw [if_neg same, if_pos (Record.differs_iff.mpr same)]

theorem key_of_stageRecord {book : HistoryBook} {time : String} {r : Record} {id : MethodId}
    {h : History} (staged : book.stageRecord time r = some (id, h)) : id = r.id := by
  rw [stageRecord_eq, Option.ite_none_right_eq_some] at staged
  exact (congrArg Prod.fst (Option.some.inj staged.2)).symm

theorem lookup_staged (book : HistoryBook) (time : String) (seen : List MethodId)
    (records : List Record) (id : MethodId) :
    ((firsts seen records).filterMap (book.stageRecord time)).lookup id =
      if id ∈ seen then none
      else (records.find? (·.id = id)).bind fun r => (book.stageRecord time r).map (·.2) := by
  induction records generalizing seen with
  | nil => simp [firsts]
  | cons r rest ih =>
    rw [firsts]
    by_cases known : r.id ∈ seen
    · -- An overload, which is passed over.
      rw [if_pos (List.contains_iff_mem.mpr known), ih]
      by_cases same : r.id = id
      · rw [if_pos (same ▸ known), if_pos (same ▸ known)]
      · rw [List.find?_cons_of_neg (by simpa using same)]
    rw [if_neg (mt List.contains_iff_mem.mp known), List.filterMap_cons]
    by_cases same : r.id = id
    · -- Later records of the method are passed over, so that this one decides.
      subst same
      rw [if_neg known, List.find?_cons_of_pos (by simp), Option.bind_some]
      cases staged : book.stageRecord time r with
      | none => exact (ih _).trans (if_pos List.mem_cons_self)
      | some entry =>
        obtain ⟨key, h⟩ := entry
        cases key_of_stageRecord staged
        exact List.lookup_cons_self
    · have elsewhere := ih (r.id :: seen)
      simp only [List.mem_cons, Ne.symm same, false_or] at elsewhere
      rw [List.find?_cons_of_neg (by simpa using same), ← elsewhere]
      cases staged : book.stageRecord time r with
      | none => rfl
      | some entry =>
        obtain ⟨key, h⟩ := entry
        cases key_of_stageRecord staged
        rw [Table.lookup_cons_ite, if_neg (Ne.symm same)]

theorem lookup_stage (book : HistoryBook) (records : List Record) (time : Moment) (id : MethodId) :
    (book.stage records time).lookup id =
      (records.find? (·.id = id)).bind fun r => (book.stageRecord time.text r).map (·.2) :=
  (book.lookup_staged time.text [] records id).trans (if_neg List.not_mem_nil)

theorem nodup_firsts (seen : List MethodId) (records : List Record) :
    ((firsts seen records).map (·.id)).Nodup ∧ ∀ r ∈ firsts seen records, r.id ∉ seen := by
  induction records generalizing seen with
  | nil => exact ⟨.nil, fun r member => absurd member List.not_mem_nil⟩
  | cons r rest ih =>
    rw [firsts]
    split
    · exact ih seen
    · next new =>
      obtain ⟨distinct, apart⟩ := ih (r.id :: seen)
      simp only [List.mem_cons, not_or] at apart
      refine ⟨List.nodup_cons.mpr ⟨fun again => ?_, distinct⟩, ?_⟩
      · obtain ⟨other, member, same⟩ := List.mem_map.mp again
        exact (apart other member).1 same
      · rw [List.forall_mem_cons]
        exact ⟨mt List.contains_iff_mem.mpr new, fun other member => (apart other member).2⟩

theorem nodup_stage (book : HistoryBook) (records : List Record) (time : Moment) :
    ((book.stage records time).map (·.1)).Nodup := by
  have keys (counting : List Record) :
      ((counting.filterMap (book.stageRecord time.text)).map (·.1)).Sublist
        (counting.map (·.id)) := by
    induction counting with
    | nil => exact .slnil
    | cons r rest ih =>
      rw [List.filterMap_cons]
      cases staged : book.stageRecord time.text r with
      | none => exact ih.cons r.id
      | some entry =>
        obtain ⟨key, h⟩ := entry
        cases key_of_stageRecord staged
        exact ih.cons_cons r.id
  exact (nodup_firsts [] records).1.sublist (keys _)

/-- What a pass stages does not depend on the order of its records, as long as the same record
counts for each method. -/
theorem perm_stage (book : HistoryBook) {records others : List Record}
    (same : ∀ id, records.find? (·.id = id) = others.find? (·.id = id)) (time : Moment) :
    (book.stage records time).Perm (book.stage others time) := by
  refine Table.perm_of_lookup (book.nodup_stage _ _) (book.nodup_stage _ _) fun id => ?_
  rw [lookup_stage, lookup_stage, same]

theorem history?_commit (book : HistoryBook) {staged : StagedHistories}
    (distinct : (staged.map (·.1)).Nodup) (id : MethodId) :
    (book.commit staged).history? id = (staged.lookup id).or (book.history? id) := by
  have folded := Table.get_foldl history? install (fun h => h)
    (fun b key h other => history?_install b key other h) distinct book id
  rwa [Option.map_id'] at folded

@[simp] theorem limit_commit (book : HistoryBook) (staged : StagedHistories) :
    (book.commit staged).limit = book.limit := by
  unfold commit
  induction staged generalizing book with
  | nil => rfl
  | cons entry rest ih => exact ih _

/-! What all passes do -/

theorem destutter'_concat (first : Record) (rest : List Record) (r : Record) :
    ∃ last, (rest.destutter' Record.Differs first).getLast? = some last ∧
      (rest ++ [r]).destutter' Record.Differs first =
        rest.destutter' Record.Differs first ++ if last.Differs r then [r] else [] := by
  induction rest generalizing first with
  | nil =>
    refine ⟨first, rfl, ?_⟩
    by_cases differs : first.Differs r <;> simp [differs]
  | cons second rest ih =>
    rw [List.cons_append]
    by_cases differs : first.Differs second
    · obtain ⟨last, isLast, more⟩ := ih second
      refine ⟨last, ?_, ?_⟩
      · rw [List.destutter'_cons_pos _ differs, List.getLast?_cons, isLast, Option.getD_some]
      · rw [List.destutter'_cons_pos _ differs, List.destutter'_cons_pos _ differs, more,
          List.cons_append]
    · -- The second record goes, so that the third one is compared with the first.
      rw [List.destutter'_cons_neg _ differs, List.destutter'_cons_neg _ differs]
      exact ih first

theorem found_concat (id : MethodId) (passes : List Pass) (p : Pass) :
    found id (passes ++ [p]) =
      found id passes ++ ((p.recordOf? id).map (·.stamped p.time.text)).toList := by
  rw [found, List.filterMap_append, List.filterMap_cons, List.filterMap_nil]
  cases p.recordOf? id <;> rfl

theorem changes_concat_of_none {id : MethodId} {p : Pass} (absent : p.recordOf? id = none)
    (passes : List Pass) : changes id (passes ++ [p]) = changes id passes := by
  rw [changes, found_concat, absent, Option.map_none, Option.toList_none, List.append_nil, changes]

theorem changes_concat_of_some {id : MethodId} {p : Pass} {r : Record}
    (present : p.recordOf? id = some r) (passes : List Pass) :
    changes id (passes ++ [p]) =
      if ∀ latest ∈ (changes id passes).head?, latest.Differs r then
        r.stamped p.time.text :: changes id passes
      else changes id passes := by
  rw [changes, found_concat, present, Option.map_some, Option.toList_some, changes]
  cases found id passes with
  | nil => simp
  | cons first rest =>
    obtain ⟨last, isLast, more⟩ := destutter'_concat first rest (r.stamped p.time.text)
    simp only [List.cons_append, List.destutter_cons', List.head?_reverse, isLast, more,
      Option.mem_some_iff, forall_eq']
    have same : last.Differs (r.stamped p.time.text) ↔ last.Differs r := .rfl
    by_cases differs : last.Differs r <;> simp [same, differs]

theorem changes_eq_nil_iff (id : MethodId) (passes : List Pass) :
    changes id passes = [] ↔ ∀ p ∈ passes, p.recordOf? id = none := by
  have kept : changes id passes = [] ↔ found id passes = [] := by
    unfold changes
    cases found id passes with
    | nil => simp
    | cons first rest => simp [List.destutter_cons', List.destutter'_ne_nil]
  rw [kept, found, List.filterMap_eq_nil_iff]
  simp only [Option.map_eq_none_iff]

@[simp] theorem limit_recordPass (book : HistoryBook) (p : Pass) :
    (book.recordPass p).limit = book.limit :=
  book.limit_commit _

theorem limit_recordAll (book : HistoryBook) (passes : List Pass) :
    (book.recordAll passes).limit = book.limit := by
  unfold recordAll
  induction passes generalizing book with
  | nil => rfl
  | cons p rest ih => rw [List.foldl_cons, ih, limit_recordPass]

theorem recordAll_concat (book : HistoryBook) (passes : List Pass) (p : Pass) :
    book.recordAll (passes ++ [p]) = (book.recordAll passes).recordPass p :=
  List.foldl_concat recordPass book p passes

theorem history?_recordPass (book : HistoryBook) (p : Pass) (id : MethodId) :
    (book.recordPass p).history? id =
      ((p.recordOf? id).bind fun r => (book.stageRecord p.time.text r).map (·.2)).or
        (book.history? id) := by
  rw [recordPass, history?_commit book (nodup_stage book _ _), lookup_stage, Pass.recordOf?]

theorem history?_recordPass_of_none (book : HistoryBook) {p : Pass} {id : MethodId}
    (absent : p.recordOf? id = none) : (book.recordPass p).history? id = book.history? id := by
  rw [history?_recordPass, absent, Option.bind_none, Option.none_or]

theorem latest_recordPass {book : HistoryBook} {limit : Option Nat}
    (limited : book.limit = limit.map (max · 1)) {p : Pass} {id : MethodId} {r : Record}
    (counts : p.recordOf? id = some r) :
    ∃ latest older, (book.recordPass p).history? id = some (latest :: older) ∧
      latest.execution.polynomial = r.execution.polynomial := by
  have key : r.id = id := by simpa using List.find?_some counts
  rw [history?_recordPass, counts, Option.bind_some, stageRecord_eq, key]
  by_cases differs : ∀ latest ∈ ((book.history? id).getD []).head?, latest.Differs r
  · rw [if_pos differs, capped_eq limited]
    -- The new entry is the first one, which no limit cuts off.
    cases kept : History.atMost limit (r.stamped p.time.text :: (book.history? id).getD []) with
    | nil =>
      have first := History.head?_atMost limit (r.stamped p.time.text :: (book.history? id).getD [])
      rw [kept] at first
      cases first
    | cons latest older =>
      have first := History.head?_atMost limit (r.stamped p.time.text :: (book.history? id).getD [])
      rw [kept] at first
      cases first
      exact ⟨_, older, rfl, rfl⟩
  · rw [if_neg differs]
    simp only [not_forall] at differs
    obtain ⟨latest, isLatest, same⟩ := differs
    rw [Record.Differs, not_not] at same
    cases found : book.history? id with
    | none =>
      rw [found] at isLatest
      cases isLatest
    | some h =>
      rw [found, Option.getD_some] at isLatest
      obtain ⟨older, rfl⟩ := List.head?_eq_some_iff.mp isLatest
      exact ⟨latest, older, rfl, same⟩

theorem nonempty_recordPass {book : HistoryBook} {limit : Option Nat}
    (limited : book.limit = limit.map (max · 1)) (p : Pass) {id : MethodId}
    (before : ∃ latest older, book.history? id = some (latest :: older)) :
    ∃ latest older, (book.recordPass p).history? id = some (latest :: older) := by
  cases counts : p.recordOf? id with
  | none =>
    rw [history?_recordPass_of_none book counts]
    exact before
  | some r =>
    obtain ⟨latest, older, found, _⟩ := latest_recordPass limited counts
    exact ⟨latest, older, found⟩

theorem history?_eq_changes (limit : Option Nat) (passes : List Pass) (id : MethodId) :
    ((new limit).recordAll passes).history? id =
      if changes id passes = [] then none else some (History.atMost limit (changes id passes)) := by
  induction passes using List.reverseRecOn with
  | nil => rfl
  | append_singleton passes p ih =>
    have limited : ((new limit).recordAll passes).limit = limit.map (max · 1) :=
      limit_recordAll (new limit) passes
    rw [recordAll_concat, history?_recordPass]
    cases counts : p.recordOf? id with
    | none => rw [changes_concat_of_none counts, ← ih, Option.bind_none, Option.none_or]
    | some r =>
      have key : r.id = id := by simpa using List.find?_some counts
      have entries : (((new limit).recordAll passes).history? id).getD [] =
          History.atMost limit (changes id passes) := by
        rw [ih]
        split
        · next empty => rw [empty, History.atMost_nil, Option.getD_none]
        · rfl
      -- The limit never cuts off the entry with which the pass is compared.
      rw [changes_concat_of_some counts, Option.bind_some, stageRecord_eq, key, entries,
        History.head?_atMost, capped_eq limited, History.atMost_cons_atMost]
      split
      · rw [if_neg (List.cons_ne_nil _ _)]
        rfl
      · exact ih

/-! Overloads -/

theorem eraseDupsBy_loop_eq (records seen : List Record) :
    List.eraseDupsBy.loop (fun r s => decide (r.id = s.id)) records seen =
      seen.reverse ++ firsts (seen.map (·.id)) records := by
  induction records generalizing seen with
  | nil => simp [List.eraseDupsBy.loop, firsts]
  | cons r rest ih =>
    have known : (seen.any fun s => decide (r.id = s.id)) = (seen.map (·.id)).contains r.id := by
      rw [Bool.eq_iff_iff, List.any_eq_true, List.contains_iff_mem, List.mem_map]
      exact exists_congr fun s => and_congr_right fun _ => decide_eq_true_iff.trans eq_comm
    rw [List.eraseDupsBy.loop, firsts, known]
    cases (seen.map (·.id)).contains r.id with
    | true => exact ih seen
    | false => simp [ih]

theorem recordOf?_withoutOverloads (p : Pass) (id : MethodId) :
    p.withoutOverloads.recordOf? id = p.recordOf? id := by
  have firstOf (seen : List MethodId) (records : List Record) (new : id ∉ seen) :
      (firsts seen records).find? (·.id = id) = records.find? (·.id = id) := by
    induction records generalizing seen with
    | nil => rfl
    | cons r rest ih =>
      rw [firsts]
      by_cases same : r.id = id
      · have unseen : ¬seen.contains r.id = true :=
          mt List.contains_iff_mem.mp (same ▸ new)
        rw [if_neg unseen, List.find?_cons_of_pos (by simpa using same),
          List.find?_cons_of_pos (by simpa using same)]
      · rw [List.find?_cons_of_neg (by simpa using same)]
        split
        · exact ih seen new
        · rw [List.find?_cons_of_neg (by simpa using same)]
          exact ih _ (by simp [Ne.symm same, new])
  rw [Pass.recordOf?, Pass.withoutOverloads, List.eraseDupsBy, eraseDupsBy_loop_eq]
  exact firstOf [] p.records List.not_mem_nil

theorem changes_withoutOverloads (id : MethodId) (passes : List Pass) :
    changes id (passes.map Pass.withoutOverloads) = changes id passes := by
  have same : found id (passes.map Pass.withoutOverloads) = found id passes := by
    simp only [found, List.filterMap_map, Function.comp_def, recordOf?_withoutOverloads]
    rfl
  rw [changes, same, changes]

end HistoryBook

/-- After any passes, a method that none of them found has no history. That of any other method is
what was found for it, pass by pass, without the costs that repeat the one before, as far as the
limit allows. So it does not matter whether the limit applies at the end only, or whether there are
overloads. -/
theorem history?_recordAll (limit : Option Nat) (passes : List Pass) (id : MethodId) :
    ((HistoryBook.new limit).recordAll passes).history? id =
        (if ∃ p ∈ passes, ∃ r ∈ p.records, r.id = id then
          some (History.atMost limit ((found id passes).destutter Record.Differs).reverse)
        else none) ∧
      ((HistoryBook.new limit).recordAll passes).history? id =
        (((HistoryBook.new none).recordAll passes).history? id).map (History.atMost limit) ∧
      ((HistoryBook.new limit).recordAll (passes.map Pass.withoutOverloads)).history? id =
        ((HistoryBook.new limit).recordAll passes).history? id := by
  have none_iff : changes id passes = [] ↔ ¬∃ p ∈ passes, ∃ r ∈ p.records, r.id = id := by
    rw [HistoryBook.changes_eq_nil_iff]
    simp [Pass.recordOf?]
  refine ⟨?_, ?_, ?_⟩
  · rw [HistoryBook.history?_eq_changes]
    simp only [none_iff, ite_not]
    rfl
  · rw [HistoryBook.history?_eq_changes, HistoryBook.history?_eq_changes]
    split <;> rfl
  · rw [HistoryBook.history?_eq_changes, HistoryBook.changes_withoutOverloads,
      HistoryBook.history?_eq_changes]

/-! What every history is like -/

/-- A history of a method as the passes of an analysis leave it. -/
structure History.Sound (id : MethodId) (h : History) : Prop where
  nonempty : h ≠ []
  own : ∀ r ∈ h, r.id = id
  timed : ∀ r ∈ h, r.timestamp.isSome = true
  changing : h.IsChain Record.Differs

theorem History.atMost_initial (limit : Option Nat) (h : History) : atMost limit h <+: h := by
  cases limit with
  | none => exact List.prefix_refl h
  | some n => exact List.take_prefix _ h

theorem History.atMost_atMost (limit : Option Nat) (h : History) :
    atMost limit (atMost limit h) = atMost limit h := by
  cases limit with
  | none => rfl
  | some n => simp [atMost, List.take_take]

theorem History.Sound.atMost {id : MethodId} {h : History} (sound : Sound id h)
    (limit : Option Nat) : Sound id (History.atMost limit h) where
  nonempty empty := sound.nonempty (by
    rw [← List.head?_eq_none_iff, ← head?_atMost limit, empty]
    rfl)
  own r member := sound.own r ((atMost_initial limit h).subset member)
  timed r member := sound.timed r ((atMost_initial limit h).subset member)
  changing := sound.changing.prefix (atMost_initial limit h)

theorem HistoryBook.sound_of_stageRecord {book : HistoryBook} {limit : Option Nat}
    (limited : book.limit = limit.map (max · 1)) {time : String} {r : Record} {id : MethodId}
    {h : History} (before : ∀ old, book.history? r.id = some old → History.Sound r.id old)
    (staged : book.stageRecord time r = some (id, h)) :
    History.Sound id h ∧ History.atMost limit h = h := by
  rw [stageRecord_eq, Option.ite_none_right_eq_some] at staged
  obtain ⟨differs, same⟩ := staged
  obtain ⟨rfl, rfl⟩ := Prod.mk.inj (Option.some.inj same)
  rw [capped_eq limited]
  refine ⟨History.Sound.atMost ?_ limit, History.atMost_atMost limit _⟩
  cases found : book.history? r.id with
  | none =>
    exact ⟨List.cons_ne_nil _ _, by simp [Record.stamped], by simp [Record.stamped], .singleton _⟩
  | some old =>
    obtain ⟨_, own, timed, changing⟩ := before old found
    rw [found] at differs
    refine ⟨List.cons_ne_nil _ _, ?_, ?_, ?_⟩
    · exact List.forall_mem_cons.mpr ⟨rfl, own⟩
    · exact List.forall_mem_cons.mpr ⟨rfl, timed⟩
    · refine changing.cons fun latest isLatest => ?_
      exact Ne.symm (differs latest isLatest)

theorem HistoryBook.sound_of_stage {book : HistoryBook} {limit : Option Nat}
    (limited : book.limit = limit.map (max · 1))
    (before : ∀ id old, book.history? id = some old → History.Sound id old)
    {records : List Record} {now : Moment} {id : MethodId} {h : History}
    (staged : (book.stage records now).lookup id = some h) :
    History.Sound id h ∧ History.atMost limit h = h := by
  rw [lookup_stage, Option.bind_eq_some_iff] at staged
  obtain ⟨r, counts, staged⟩ := staged
  obtain ⟨⟨key, _⟩, changed, rfl⟩ := Option.map_eq_some_iff.mp staged
  have same : r.id = id := by simpa using List.find?_some counts
  cases key_of_stageRecord changed
  exact same ▸ sound_of_stageRecord limited (before r.id) changed

theorem HistoryBook.foldl_restore (book : HistoryBook) (stored : List (MethodId × History)) :
    stored.foldl (fun b entry => b.restore entry.1 entry.2) book =
      book.commit (stored.map fun entry => (entry.1, book.capped entry.2)) := by
  induction stored generalizing book with
  | nil => rfl
  | cons entry rest ih => exact ih _

end CostWatch

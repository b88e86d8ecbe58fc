import CostWatch.Ledger.Basic
import CostWatch.Proofs.Cost.Whitelist
import CostWatch.Proofs.Ledger.Storage

/-!
A ledger in memory agrees with its database, whatever is done with it while the database accepts
its writes.

In memory a history is the stored one as far as the limit allows. The two differ once a ledger has
been opened with a smaller limit: what the limit cuts off stays stored until the history changes.
-/

set_option autoImplicit false

namespace CostWatch

namespace Ledger

/-- What is done with a ledger. It may be opened again with another limit. -/
inductive Operation where
  | record (records : List Record) (now : Moment)
  | addName (name : String)
  | removeName (name : String)
  | reopen (limit : Option Nat)

inductive Answer where
  | changed (ids : List MethodId)
  | named (answer : Except LedgerError Bool)
  | reopened

def Operation.limitAfter (limit : Option Nat) : Operation → Option Nat
  | .reopen new => new
  | _ => limit

def Operation.limitAfterAll (limit : Option Nat) (operations : List Operation) : Option Nat :=
  operations.foldl limitAfter limit

def perform (l : Ledger) : Operation → Except LedgerError (Answer × Ledger)
  | .record records now => do
    let (ids, next) ← l.record records now .succeeds
    .ok (.changed ids, next)
  | .addName name => .ok (.named (l.addName name .succeeds).1, (l.addName name .succeeds).2)
  | .removeName name =>
    .ok (.named (l.removeName name .succeeds).1, (l.removeName name .succeeds).2)
  | .reopen limit => do
    let next ← load l.storage limit
    .ok (.reopened, next)

def performAll (l : Ledger) : List Operation → Except LedgerError (List Answer × Ledger)
  | [] => .ok ([], l)
  | operation :: rest => do
    let (answer, next) ← l.perform operation
    let (answers, last) ← next.performAll rest
    .ok (answer :: answers, last)

theorem performAll_cons {l last : Ledger} {operation : Operation} {rest : List Operation}
    {all : List Answer} :
    l.performAll (operation :: rest) = .ok (all, last) ↔
      ∃ answer next answers, l.perform operation = .ok (answer, next) ∧
        next.performAll rest = .ok (answers, last) ∧ all = answer :: answers := by
  constructor
  · intro performs
    rw [performAll] at performs
    cases first : l.perform operation with
    | error e =>
      rw [first] at performs
      cases performs
    | ok found =>
      obtain ⟨answer, next⟩ := found
      rw [first] at performs
      dsimp only [bind, Except.bind] at performs
      cases others : next.performAll rest with
      | error e =>
        rw [others] at performs
        cases performs
      | ok found =>
        rw [others] at performs
        cases performs
        exact ⟨answer, next, found.1, rfl, others, rfl⟩
  · rintro ⟨answer, next, answers, first, others, rfl⟩
    rw [performAll, first]
    dsimp only [bind, Except.bind]
    rw [others]

/-! Agreement -/

/-- What is stored, what is in memory, and how both belong together. -/
structure Agrees (limit : Option Nat) (l : Ledger) (stored : List (MethodId × History))
    (names : List String) : Prop where
  holds : l.storage.Holds stored names
  limited : l.book.limit = limit.map (max · 1)
  memory : ∀ id, l.history? id = (stored.lookup id).map (History.atMost limit)
  sound : ∀ id h, stored.lookup id = some h → History.Sound id h
  whitelist : ∀ name, l.whitelist.has name = true ↔ name ∈ names
  trimmed : ∀ name ∈ names, Whitelist.nameOf? name = some name

variable {limit : Option Nat} {l : Ledger} {stored : List (MethodId × History)}
  {names : List String}

theorem Agrees.soundMemory (agrees : l.Agrees limit stored names) {id : MethodId} {h : History}
    (found : l.history? id = some h) : History.Sound id h := by
  rw [agrees.memory] at found
  obtain ⟨whole, isStored, rfl⟩ := Option.map_eq_some_iff.mp found
  exact (agrees.sound id whole isStored).atMost limit

theorem agrees_load {s : Storage} (holds : s.Holds stored names)
    (sound : ∀ id h, stored.lookup id = some h → History.Sound id h)
    (trimmed : ∀ name ∈ names, Whitelist.nameOf? name = some name) (limit : Option Nat) :
    ∃ l, load s limit = .ok l ∧ l.storage = s ∧ l.Agrees limit stored names := by
  have loaded : load s limit = .ok ⟨s, (HistoryBook.new limit).commit
      (stored.map fun entry => (entry.1, (HistoryBook.new limit).capped entry.2)),
        .ofNames names⟩ := by
    rw [load, holds.loadHistories, holds.loadWhitelist, ← HistoryBook.foldl_restore]
    rfl
  refine ⟨_, loaded, rfl, holds, HistoryBook.limit_commit _ _, fun id => ?_, sound,
    Whitelist.has_ofNames trimmed, trimmed⟩
  have distinct := holds.distinct.1
  rw [history?, HistoryBook.history?_commit _ (by rwa [List.map_map]), Table.lookup_map]
  have capped : (HistoryBook.new limit).capped = History.atMost limit :=
    funext (HistoryBook.capped_eq rfl)
  rw [capped]
  exact Option.or_none

def recorded (l : Ledger) (records : List Record) (now : Moment) : Ledger where
  storage := { l.storage with
    histories := Storage.putHistories l.storage.histories (l.book.stage records now) }
  book := l.book.commit (l.book.stage records now)
  whitelist := l.whitelist

theorem record_succeeds (l : Ledger) (records : List Record) (now : Moment) :
    l.record records now .succeeds =
      .ok ((l.book.stage records now).map (·.1), l.recorded records now) :=
  rfl

theorem book_record {records : List Record} {now : Moment} {attempt : Attempt}
    {ids : List MethodId} {next : Ledger} (done : l.record records now attempt = .ok (ids, next)) :
    next.book = l.book.recordPass ⟨records, now⟩ := by
  cases attempt with
  | succeeds =>
    cases done
    rfl
  | fails reason => cases done

theorem limit_load {s : Storage} (loads : load s limit = .ok l) :
    l.book.limit = limit.map (max · 1) := by
  rw [load] at loads
  cases histories : s.loadHistories with
  | error e =>
    rw [histories] at loads
    cases loads
  | ok found =>
    cases whitelist : s.loadWhitelist with
    | error e =>
      rw [histories, whitelist] at loads
      cases loads
    | ok names =>
      rw [histories, whitelist] at loads
      cases loads
      rw [HistoryBook.foldl_restore]
      exact HistoryBook.limit_commit _ _

theorem agrees_recorded (agrees : l.Agrees limit stored names) (records : List Record)
    (now : Moment) : ∃ stored', (l.recorded records now).Agrees limit stored' names := by
  have distinct := l.book.nodup_stage records now
  have sound {id : MethodId} {h : History}
      (staged : (l.book.stage records now).lookup id = some h) :=
    HistoryBook.sound_of_stage agrees.limited (fun _ _ => agrees.soundMemory) staged
  obtain ⟨stored', holds, found⟩ := agrees.holds.putHistories distinct
  refine ⟨stored', holds, ?_, fun id => ?_, fun id h isStored => ?_, agrees.whitelist,
    agrees.trimmed⟩
  · exact (l.book.limit_commit _).trans agrees.limited
  · -- A history that is staged is within the limit, so that it is stored as it is in memory.
    rw [history?, recorded, HistoryBook.history?_commit _ distinct, found]
    cases staged : (l.book.stage records now).lookup id with
    | none => exact agrees.memory id
    | some h => exact congrArg some (sound staged).2.symm
  · rw [found] at isStored
    cases staged : (l.book.stage records now).lookup id with
    | none => exact agrees.sound id h (by rwa [staged] at isStored)
    | some h' =>
      rw [staged] at isStored
      cases isStored
      exact (sound staged).1

theorem agrees_addName (agrees : l.Agrees limit stored names) (name : String) :
    ∃ names', (l.addName name .succeeds).2.Agrees limit stored names' := by
  rw [addName, nameOf]
  cases valid : Whitelist.nameOf? name with
  | none => exact ⟨names, agrees⟩
  | some trimmed =>
    dsimp only
    split
    · exact ⟨names, agrees⟩
    · obtain ⟨names', holds, members⟩ := agrees.holds.insertName trimmed
      refine ⟨names', holds, agrees.limited, agrees.memory, agrees.sound, fun other => ?_, ?_⟩
      · change (l.whitelist.insert trimmed).has other = true ↔ _
        rw [Whitelist.has_insert, members, Bool.or_eq_true, decide_eq_true_iff, agrees.whitelist]
      · intro other member
        rcases (members other).mp member with rfl | old
        · exact Whitelist.nameOf?_of_nameOf? valid
        · exact agrees.trimmed other old

theorem agrees_removeName (agrees : l.Agrees limit stored names) (name : String) :
    ∃ names', (l.removeName name .succeeds).2.Agrees limit stored names' := by
  rw [removeName, nameOf]
  cases valid : Whitelist.nameOf? name with
  | none => exact ⟨names, agrees⟩
  | some trimmed =>
    dsimp only
    split
    · refine ⟨_, agrees.holds.eraseName trimmed, agrees.limited, agrees.memory, agrees.sound,
        fun other => ?_, ?_⟩
      · change (l.whitelist.erase trimmed).has other = true ↔ _
        rw [Whitelist.has_erase, List.mem_filter, Bool.and_eq_true, agrees.whitelist, and_comm]
      · exact fun other member => agrees.trimmed other (List.mem_filter.mp member).1
    · exact ⟨names, agrees⟩

/-- Every operation goes through and keeps the agreement. -/
theorem agrees_perform (agrees : l.Agrees limit stored names) (operation : Operation) :
    ∃ answer next stored' names', l.perform operation = .ok (answer, next) ∧
      next.Agrees (operation.limitAfter limit) stored' names' := by
  cases operation with
  | record records now =>
    obtain ⟨stored', agrees⟩ := agrees_recorded agrees records now
    exact ⟨_, _, stored', names, rfl, agrees⟩
  | addName name =>
    obtain ⟨names', agrees⟩ := agrees_addName agrees name
    exact ⟨_, (l.addName name .succeeds).2, stored, names', by rw [perform], agrees⟩
  | removeName name =>
    obtain ⟨names', agrees⟩ := agrees_removeName agrees name
    exact ⟨_, (l.removeName name .succeeds).2, stored, names', by rw [perform], agrees⟩
  | reopen new =>
    obtain ⟨next, loads, _, agrees⟩ := agrees_load agrees.holds agrees.sound agrees.trimmed new
    exact ⟨_, next, stored, names, by rw [perform, loads]; rfl, agrees⟩

theorem agrees_performAll (agrees : l.Agrees limit stored names) (operations : List Operation) :
    ∃ answers last stored' names', l.performAll operations = .ok (answers, last) ∧
      last.Agrees (Operation.limitAfterAll limit operations) stored' names' := by
  induction operations generalizing l limit stored names with
  | nil => exact ⟨[], l, stored, names, rfl, agrees⟩
  | cons operation rest ih =>
    obtain ⟨answer, next, stored', names', performs, agrees⟩ := agrees_perform agrees operation
    obtain ⟨answers, last, stored', names', performsRest, agrees⟩ := ih agrees
    exact ⟨answer :: answers, last, stored', names',
      performAll_cons.mpr ⟨answer, next, answers, performs, performsRest, rfl⟩, agrees⟩

/-! What can be told apart -/

/-- Ledgers that show the same. How the histories are ordered in memory does not show. -/
structure Alike (l m : Ledger) : Prop where
  storage : l.storage = m.storage
  whitelist : l.whitelist = m.whitelist
  limit : l.book.limit = m.book.limit
  histories : ∀ id, l.history? id = m.history? id

/-- A pass leaves the same behind in any order of its records in which the same record counts for
each method. -/
theorem alike_recorded (l : Ledger) {records others : List Record}
    (same : ∀ id, records.find? (·.id = id) = others.find? (·.id = id)) (now : Moment) :
    (l.recorded records now).Alike (l.recorded others now) where
  storage := congrArg (fun histories => { l.storage with histories })
    (Storage.putHistories_of_perm l.storage.histories (l.book.perm_stage same now)
      (l.book.nodup_stage records now))
  whitelist := rfl
  limit := (l.book.limit_commit _).trans (l.book.limit_commit _).symm
  histories id := by
    rw [history?, history?, recorded, recorded,
      HistoryBook.history?_commit _ (l.book.nodup_stage records now),
      HistoryBook.history?_commit _ (l.book.nodup_stage others now), HistoryBook.lookup_stage,
      HistoryBook.lookup_stage, same]

theorem stage_eq {b c : HistoryBook} (limit : b.limit = c.limit)
    (histories : ∀ id, b.history? id = c.history? id) (records : List Record) (now : Moment) :
    b.stage records now = c.stage records now := by
  have each (r : Record) : b.stageRecord now.text r = c.stageRecord now.text r := by
    simp only [HistoryBook.stageRecord, HistoryBook.capped, limit, histories]
  rw [HistoryBook.stage, HistoryBook.stage, funext each]

theorem addName_book (l : Ledger) (book : HistoryBook) (name : String) (attempt : Attempt) :
    { l with book }.addName name attempt =
      ((l.addName name attempt).1, { (l.addName name attempt).2 with book }) := by
  unfold addName
  split
  · rfl
  · dsimp only
    split
    · rfl
    · split <;> rfl

theorem removeName_book (l : Ledger) (book : HistoryBook) (name : String) (attempt : Attempt) :
    { l with book }.removeName name attempt =
      ((l.removeName name attempt).1, { (l.removeName name attempt).2 with book }) := by
  unfold removeName
  split
  · rfl
  · dsimp only
    split
    · split <;> rfl
    · rfl

theorem Alike.of_change {l m next : Ledger} (alike : l.Alike m) (kept : next.book = l.book) :
    next.Alike { next with book := m.book } where
  storage := rfl
  whitelist := rfl
  limit := (congrArg (·.limit) kept).trans alike.limit
  histories id := (congrArg (·.history? id) kept).trans (alike.histories id)

theorem alike_perform {l m next : Ledger} (alike : l.Alike m) {operation : Operation}
    {answer : Answer} (performs : l.perform operation = .ok (answer, next)) :
    ∃ next', m.perform operation = .ok (answer, next') ∧ next.Alike next' := by
  -- Only the books may differ, and those only in the order of their entries.
  have same : { l with book := m.book } = m := by
    cases m
    obtain ⟨rfl, rfl, _, _⟩ := alike
    rfl
  cases operation with
  | record records now =>
    have staged := stage_eq alike.limit alike.histories records now
    have distinct := l.book.nodup_stage records now
    cases performs
    refine ⟨m.recorded records now, by rw [perform, record_succeeds, ← staged]; rfl, ?_⟩
    refine ⟨?_, alike.whitelist, ?_, fun id => ?_⟩
    · change (l.recorded records now).storage = _
      rw [recorded, recorded, ← staged, alike.storage]
    · exact (l.book.limit_commit _).trans (alike.limit.trans (m.book.limit_commit _).symm)
    · change (l.recorded records now).history? id = _
      rw [history?, history?, recorded, recorded, ← staged,
        HistoryBook.history?_commit _ distinct, HistoryBook.history?_commit _ distinct]
      exact congrArg _ (alike.histories id)
  | addName name =>
    rw [perform] at performs
    cases performs
    have named := addName_book l m.book name .succeeds
    rw [same] at named
    exact ⟨_, by rw [perform, named], alike.of_change (l.book_addName name .succeeds)⟩
  | removeName name =>
    rw [perform] at performs
    cases performs
    have named := removeName_book l m.book name .succeeds
    rw [same] at named
    exact ⟨_, by rw [perform, named], alike.of_change (l.book_removeName name .succeeds)⟩
  | reopen new =>
    -- Nothing of the memory is left.
    rw [perform, alike.storage] at performs
    exact ⟨next, performs, rfl, rfl, rfl, fun _ => rfl⟩

theorem alike_performAll {l m last : Ledger} (alike : l.Alike m) {operations : List Operation}
    {answers : List Answer} (performs : l.performAll operations = .ok (answers, last)) :
    ∃ last', m.performAll operations = .ok (answers, last') ∧ last.Alike last' := by
  induction operations generalizing l m answers with
  | nil =>
    cases performs
    exact ⟨m, rfl, alike⟩
  | cons operation rest ih =>
    rw [performAll_cons] at performs
    obtain ⟨answer, next, answers, first, others, rfl⟩ := performs
    obtain ⟨next', first, alike⟩ := alike_perform alike first
    obtain ⟨last', others, alike⟩ := ih alike others
    exact ⟨last', performAll_cons.mpr ⟨answer, next', answers, first, others, rfl⟩, alike⟩

theorem Alike.description {l m : Ledger} (alike : l.Alike m) : l.description = m.description := by
  have size : l.book.size = m.book.size := Table.size_eq alike.histories
  unfold Ledger.description
  rw [alike.whitelist, size]

theorem Agrees.alike_load (agrees : l.Agrees limit stored names) :
    ∃ again, load l.storage limit = .ok again ∧ l.Alike again := by
  obtain ⟨again, loads, same, again'⟩ := agrees_load agrees.holds agrees.sound agrees.trimmed limit
  refine ⟨again, loads, same.symm, Whitelist.eq_of_has fun name => ?_, ?_, fun id => ?_⟩
  · rw [Bool.eq_iff_iff, agrees.whitelist, again'.whitelist]
  · rw [agrees.limited, again'.limited]
  · rw [agrees.memory, again'.memory]

end Ledger

/-- Whatever is done with a ledger that began empty, every operation goes through, and then memory
agrees with the database: the histories are the stored ones as far as the limit allows, and the
whitelist is the stored names. What is stored is sound. So the ledger can be opened again with the
same limit, and from then on nothing tells whether it was. -/
theorem ledger_agrees_with_storage (limit : Option Nat) (operations : List Ledger.Operation) :
    ∃ first answers l stored names,
      Ledger.load .empty limit = .ok first ∧
      first.performAll operations = .ok (answers, l) ∧
      l.storage.loadHistories = .ok stored ∧ (stored.map (·.1)).Nodup ∧
      (∀ entry ∈ stored, History.Sound entry.1 entry.2) ∧
      l.storage.whitelist.entries.mapM Storage.nameOfEntry = .ok names ∧
      (∀ id, l.history? id =
        (stored.lookup id).map (History.atMost (Ledger.Operation.limitAfterAll limit operations))) ∧
      (∀ name, l.whitelist.has name = true ↔ name ∈ names) ∧
      ∃ again, Ledger.load l.storage (Ledger.Operation.limitAfterAll limit operations) = .ok again ∧
        l.Alike again ∧ l.description = again.description ∧
        ∀ later, ∃ answers last last',
          l.performAll later = .ok (answers, last) ∧
          again.performAll later = .ok (answers, last') ∧ last.Alike last' := by
  have empty : Storage.empty.Holds [] [] := ⟨rfl, rfl⟩
  obtain ⟨first, opens, _, agrees⟩ := Ledger.agrees_load empty nofun nofun limit
  obtain ⟨answers, l, stored, names, performs, agrees⟩ := Ledger.agrees_performAll agrees operations
  obtain ⟨again, loads, alike⟩ := agrees.alike_load
  refine ⟨first, answers, l, stored, names, opens, performs, agrees.holds.loadHistories,
    agrees.holds.distinct.1, fun entry member => ?_, agrees.holds.loadNames, agrees.memory,
    agrees.whitelist, again, loads, alike, alike.description, fun later => ?_⟩
  · exact agrees.sound entry.1 entry.2 (Table.lookup_of_mem agrees.holds.distinct.1 member)
  · obtain ⟨answers, last, _, _, performs, _⟩ := Ledger.agrees_performAll agrees later
    obtain ⟨last', performs', alike⟩ := Ledger.alike_performAll alike performs
    exact ⟨answers, last, last', performs, performs', alike⟩

end CostWatch

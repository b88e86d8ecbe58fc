import CostWatch.Proofs.Ledger.Agreement
import CostWatch.Proofs.Traversal
import Mathlib.Algebra.Group.Nat.Even

/-!
Updates of the whitelist whose writes the database may refuse.

A name changes in memory before it is written. So an update that the database refuses stays in
memory, where a repetition finds nothing left to do: memory and database differ until the name is
changed again, whether that change is written or refused as well. A name that is stored with blanks
around it is loaded without them, and taking it out of the whitelist leaves it stored.
-/

set_option autoImplicit false

namespace CostWatch

def Whitelist.put (w : Whitelist) (name : String) (listed : Bool) : Whitelist :=
  if listed then w.insert name else w.erase name

@[simp] theorem Whitelist.has_put (w : Whitelist) (name : String) (listed : Bool) (other : String) :
    (w.put name listed).has other = if other = name then listed else w.has other := by
  cases listed <;> by_cases same : other = name <;> simp [put, same]

/-! Trees and what is read from their entries -/

namespace Tree
variable {t : Tree} {key value : List UInt8} {entry : List UInt8 × List UInt8}

theorem contains_iff : t.contains key = true ↔ ∃ entry ∈ t.entries, entry.1 = key := by
  rw [contains, find?, Option.isSome_iff_ne_none, ne_eq, List.lookup_eq_none_iff]
  simp [@eq_comm _ key]

theorem mem_insertEntry_of_ne {entries : List (List UInt8 × List UInt8)} (other : entry.1 ≠ key) :
    entry ∈ insertEntry key value entries ↔ entry ∈ entries := by
  have apart : entry ≠ (key, value) := fun same => other (congrArg Prod.fst same)
  induction entries with
  | nil => simp [insertEntry, apart]
  | cons first rest ih =>
    rw [insertEntry]
    split
    · next same =>
      have apart' : entry ≠ first := fun equal => other (by rw [equal, same])
      simp [apart, apart']
    · split
      · simp [apart]
      · simp [ih]

theorem contains_insert (other : List UInt8) :
    (t.insert key value).contains other = (decide (other = key) || t.contains other) := by
  rw [contains, find?_insert, contains]
  by_cases same : other = key <;> simp [same]

theorem contains_erase (other : List UInt8) :
    (t.erase key).contains other = (decide (other ≠ key) && t.contains other) := by
  rw [Bool.eq_iff_iff, Bool.and_eq_true, decide_eq_true_iff, contains_iff, contains_iff]
  simp only [erase, List.mem_filter, decide_eq_true_eq]
  constructor
  · rintro ⟨entry, ⟨member, apart⟩, rfl⟩
    exact ⟨apart, entry, member, rfl⟩
  · rintro ⟨apart, entry, member, rfl⟩
    exact ⟨entry, ⟨member, apart⟩, rfl⟩

end Tree

/-! Databases and what is loaded from them -/

namespace Storage

def holdsName (s : Storage) (name : String) : Bool :=
  s.whitelist.contains (Text.Utf8.encode name)

/-- Whether a name is stored under another key than its own, as it is with blanks around it. -/
def HoldsOtherwise (s : Storage) (name : String) : Prop :=
  ∃ entry ∈ s.whitelist.entries, entry.1 ≠ Text.Utf8.encode name ∧
    ∃ spelled, nameOfEntry entry = .ok spelled ∧ Whitelist.nameOf? spelled = some name

def putName (s : Storage) (name : String) (listed : Bool) : Storage :=
  { s with
    whitelist :=
      if listed then s.whitelist.insert (Text.Utf8.encode name) []
      else s.whitelist.erase (Text.Utf8.encode name) }

structure Readable (s : Storage) : Prop where
  histories : ∀ entry ∈ s.histories.entries, ∃ found, historyOfEntry entry = .ok found
  names : ∀ entry ∈ s.whitelist.entries, ∃ name, nameOfEntry entry = .ok name

variable {s : Storage}

theorem holdsName_putName (s : Storage) (name : String) (listed : Bool) (other : String) :
    (s.putName name listed).holdsName other =
      if other = name then listed else s.holdsName other := by
  have encoded : Text.Utf8.encode other = Text.Utf8.encode name ↔ other = name :=
    ⟨fun same => Text.Utf8.encode_injective same, congrArg _⟩
  cases listed <;> by_cases same : other = name <;>
    simp [holdsName, putName, Tree.contains_insert, Tree.contains_erase, encoded, same]

theorem nameOfEntry_of_key {entry : List UInt8 × List UInt8} {name : String}
    (same : entry.1 = Text.Utf8.encode name) : nameOfEntry entry = .ok name := by
  rw [nameOfEntry, same, Text.Utf8.decode_encode]

theorem mem_putName {entry : List UInt8 × List UInt8} {name : String}
    (apart : entry.1 ≠ Text.Utf8.encode name) (listed : Bool) :
    entry ∈ (s.putName name listed).whitelist.entries ↔ entry ∈ s.whitelist.entries := by
  cases listed with
  | false => simp [putName, Tree.erase, apart]
  | true => exact Tree.mem_insertEntry_of_ne apart

theorem holdsOtherwise_putName {name : String} (trimmed : Whitelist.nameOf? name = some name)
    (listed : Bool) (other : String) :
    (s.putName name listed).HoldsOtherwise other ↔ s.HoldsOtherwise other := by
  -- An entry that stands under the key of the name is no other spelling.
  have foreign {entry : List UInt8 × List UInt8} {spelled : String}
      (apart : entry.1 ≠ Text.Utf8.encode other) (read : nameOfEntry entry = .ok spelled)
      (names : Whitelist.nameOf? spelled = some other) : entry.1 ≠ Text.Utf8.encode name := by
    intro same
    cases (nameOfEntry_of_key same).symm.trans read
    cases trimmed.symm.trans names
    exact apart same
  refine exists_congr fun entry => ?_
  constructor
  · rintro ⟨member, apart, spelled, read, names⟩
    exact ⟨(mem_putName (foreign apart read names) listed).mp member, apart, spelled, read, names⟩
  · rintro ⟨member, apart, spelled, read, names⟩
    exact ⟨(mem_putName (foreign apart read names) listed).mpr member, apart, spelled, read, names⟩

theorem nameOf?_of_holdsOtherwise {name : String} (other : s.HoldsOtherwise name) :
    Whitelist.nameOf? name = some name := by
  obtain ⟨_, _, _, spelled, _, names⟩ := other
  exact Whitelist.nameOf?_of_nameOf? names

theorem Readable.putName (readable : s.Readable) (name : String) (listed : Bool) :
    (s.putName name listed).Readable := by
  refine ⟨readable.histories, ?_⟩
  cases listed with
  | false => exact fun entry member => readable.names entry (List.mem_filter.mp member).1
  | true =>
    intro entry member
    rcases mem_insertEntry member with rfl | old
    · exact ⟨name, nameOfEntry_nameEntry name⟩
    · exact readable.names entry old

theorem Readable.putHistories (readable : s.Readable) (batch : StagedHistories) :
    { s with histories := Storage.putHistories s.histories batch }.Readable := by
  have each {t : Tree} (before : ∀ entry ∈ t.entries, ∃ found, historyOfEntry entry = .ok found) :
      ∀ entry ∈ (Storage.putHistories t batch).entries, ∃ found,
        historyOfEntry entry = .ok found := by
    unfold Storage.putHistories
    induction batch generalizing t with
    | nil => exact before
    | cons first rest ih =>
      refine ih fun entry member => ?_
      rcases mem_insertEntry member with rfl | old
      · exact ⟨first, historyOfEntry_historyEntry first⟩
      · exact before entry old
  exact ⟨each readable.histories, readable.names⟩

end Storage

namespace Ledger

theorem load_eq_ok_iff {s : Storage} {limit : Option Nat} {l : Ledger} :
    load s limit = .ok l ↔ ∃ stored names, s.loadHistories = .ok stored ∧
      s.whitelist.entries.mapM Storage.nameOfEntry = .ok names ∧
      l = ⟨s, stored.foldl (fun b entry => b.restore entry.1 entry.2) (.new limit),
        .ofNames names⟩ := by
  rw [load, Storage.loadWhitelist]
  cases s.loadHistories with
  | error e => simp [bind, Except.bind]
  | ok stored =>
    cases s.whitelist.entries.mapM Storage.nameOfEntry with
    | error e => simp [bind, Except.bind]
    | ok names => simp [bind, Except.bind, eq_comm]

theorem exists_load_iff {s : Storage} (limit : Option Nat) :
    (∃ l, load s limit = .ok l) ↔ s.Readable := by
  constructor
  · rintro ⟨l, loads⟩
    obtain ⟨stored, names, histories, whitelist, _⟩ := load_eq_ok_iff.mp loads
    exact ⟨mapM_eq_ok_iff.mp ⟨stored, histories⟩, mapM_eq_ok_iff.mp ⟨names, whitelist⟩⟩
  · intro readable
    obtain ⟨stored, histories⟩ := mapM_eq_ok_iff.mpr readable.histories
    obtain ⟨names, whitelist⟩ := mapM_eq_ok_iff.mpr readable.names
    exact ⟨_, load_eq_ok_iff.mpr ⟨stored, names, histories, whitelist, rfl⟩⟩

/-- A ledger that is loaded lists the names that are stored in any spelling. -/
theorem has_of_load {s : Storage} {limit : Option Nat} {l : Ledger}
    (loads : load s limit = .ok l) (name : String) :
    l.whitelist.has name = true ↔
      Whitelist.nameOf? name = some name ∧ (s.holdsName name = true ∨ s.HoldsOtherwise name) := by
  obtain ⟨stored, names, _, whitelist, rfl⟩ := load_eq_ok_iff.mp loads
  have listed : (Whitelist.ofNames names).has name = true ↔
      ∃ entry ∈ s.whitelist.entries, ∃ spelled, Storage.nameOfEntry entry = .ok spelled ∧
        Whitelist.nameOf? spelled = some name := by
    have empty : ¬Whitelist.empty.has name = true := Bool.false_ne_true
    rw [Whitelist.ofNames, Whitelist.has_foldl, or_iff_left empty, List.mem_filterMap]
    simp only [mem_of_mapM whitelist]
    constructor
    · rintro ⟨spelled, ⟨entry, member, read⟩, names⟩
      exact ⟨entry, member, spelled, read, names⟩
    · rintro ⟨entry, member, spelled, read, names⟩
      exact ⟨spelled, ⟨entry, member, read⟩, names⟩
  rw [listed]
  constructor
  · rintro ⟨entry, member, spelled, read, names⟩
    refine ⟨Whitelist.nameOf?_of_nameOf? names, ?_⟩
    by_cases own : entry.1 = Text.Utf8.encode name
    · exact .inl (Tree.contains_iff.mpr ⟨entry, member, own⟩)
    · exact .inr ⟨entry, member, own, spelled, read, names⟩
  · rintro ⟨trimmed, stored | ⟨entry, member, _, spelled, read, names⟩⟩
    · obtain ⟨entry, member, own⟩ := Tree.contains_iff.mp stored
      exact ⟨entry, member, name, Storage.nameOfEntry_of_key own, trimmed⟩
    · exact ⟨entry, member, spelled, read, names⟩

/-! Updates -/

/-- An update of the whitelist: a name is to be listed, or not to be. -/
structure Update where
  name : String
  listed : Bool

def update (l : Ledger) (u : Update) (attempt : Attempt) : Except LedgerError Bool × Ledger :=
  if u.listed then l.addName u.name attempt else l.removeName u.name attempt

theorem update_listed (l : Ledger) (name : String) (attempt : Attempt) :
    l.update ⟨name, true⟩ attempt = l.addName name attempt :=
  if_pos rfl

theorem update_not_listed (l : Ledger) (name : String) (attempt : Attempt) :
    l.update ⟨name, false⟩ attempt = l.removeName name attempt :=
  if_neg nofun

inductive Updates (l : Ledger) (u : Update) (attempt : Attempt) :
    Except LedgerError Bool → Ledger → Prop where
  | blank : Whitelist.nameOf? u.name = none → Updates l u attempt (.error (.invalidName u.name)) l
  /-- There is nothing left to do. -/
  | done {name : String} : Whitelist.nameOf? u.name = some name →
      l.whitelist.has name = u.listed → Updates l u attempt (.ok false) l
  | written {name : String} : Whitelist.nameOf? u.name = some name →
      l.whitelist.has name ≠ u.listed → attempt = .succeeds →
      Updates l u attempt (.ok true)
        { l with
          whitelist := l.whitelist.put name u.listed
          storage := l.storage.putName name u.listed }
  | refused {name reason : String} : Whitelist.nameOf? u.name = some name →
      l.whitelist.has name ≠ u.listed → attempt = .fails reason →
      Updates l u attempt (.error (.database reason))
        { l with whitelist := l.whitelist.put name u.listed }

theorem updates (l : Ledger) (u : Update) (attempt : Attempt) :
    l.Updates u attempt (l.update u attempt).1 (l.update u attempt).2 := by
  obtain ⟨name, listed⟩ := u
  cases trims : Whitelist.nameOf? name with
  | none =>
    have valid : nameOf name = .error (.invalidName name) := by rw [nameOf, trims]
    cases listed <;> simp only [update, addName, removeName, valid] <;> exact .blank trims
  | some trimmed =>
    have valid : nameOf name = .ok trimmed := by rw [nameOf, trims]
    cases listed with
    | true =>
      simp only [update, addName, valid, if_true]
      by_cases has : l.whitelist.has trimmed = true
      · rw [if_pos has]
        exact .done trims has
      · rw [if_neg has]
        cases attempt with
        | succeeds => exact .written trims has rfl
        | fails reason => exact .refused trims has rfl
    | false =>
      simp only [update, removeName, valid, Bool.false_eq_true, if_false]
      by_cases has : l.whitelist.has trimmed = true
      · rw [if_pos has]
        have listed : l.whitelist.has trimmed ≠ false := by simp [has]
        cases attempt with
        | succeeds => exact .written trims listed rfl
        | fails reason => exact .refused trims listed rfl
      · rw [if_neg has]
        exact .done trims (Bool.eq_false_iff.mpr has)

theorem whitelist_put_ne {w : Whitelist} {name : String} {listed : Bool}
    (changes : w.has name ≠ listed) : w.put name listed ≠ w := by
  intro same
  have now := w.has_put name listed name
  rw [same, if_pos rfl] at now
  exact changes now

/-- An update that fails leaves the database as it is. It leaves the memory as it is exactly if the
name is blank, and repeating it changes nothing. -/
theorem update_failed {l next : Ledger} {u : Update} {attempt : Attempt} {e : LedgerError}
    (failed : l.update u attempt = (.error e, next)) :
    next = { l with whitelist := next.whitelist } ∧
      (next.whitelist = l.whitelist ↔ e = .invalidName u.name) ∧
      ∀ retry, (next.update u retry).2 = next := by
  have outcome := l.updates u attempt
  rw [failed] at outcome
  cases outcome with
  | blank none =>
    refine ⟨rfl, iff_of_true rfl rfl, fun retry => ?_⟩
    have again := next.updates u retry
    generalize next.update u retry = answered at again
    obtain ⟨answer, last⟩ := answered
    cases again with
    | blank _ | done _ _ => rfl
    | written trims _ _ | refused trims _ _ => cases none.symm.trans trims
  | @refused name reason trims changes refusal =>
    refine ⟨rfl, iff_of_false (whitelist_put_ne changes) nofun, fun retry => ?_⟩
    -- The name is in memory as it is to be, so that there is nothing left to do.
    have settled : (l.whitelist.put name u.listed).has name = u.listed := by simp
    have again := Ledger.updates { l with whitelist := l.whitelist.put name u.listed } u retry
    generalize Ledger.update { l with whitelist := l.whitelist.put name u.listed } u retry =
      answered at again
    obtain ⟨answer, last⟩ := answered
    cases again with
    | blank _ | done _ _ => rfl
    | written trims' differs _ | refused trims' differs _ =>
      cases trims.symm.trans trims'
      exact absurd settled differs

/-! Runs -/

structure Trial where
  operation : Operation
  attempt : Attempt

def attempted (l : Ledger) (t : Trial) : Ledger :=
  match t.operation with
  | .record records now =>
    match l.record records now t.attempt with
    | .ok (_, next) => next
    | .error _ => l
  | .addName name => (l.addName name t.attempt).2
  | .removeName name => (l.removeName name t.attempt).2
  | .reopen limit =>
    match load l.storage limit with
    | .ok next => next
    | .error _ => l

def after (l : Ledger) : List Trial → Ledger
  | [] => l
  | t :: earlier => (l.after earlier).attempted t

/-- How many changes of a name have been refused after an update. One that is written starts over.
-/
def refusedAfter (l : Ledger) (u : Update) (attempt : Attempt) (name : String) (before : Nat) :
    Nat :=
  if Whitelist.nameOf? u.name = some name ∧ l.whitelist.has name ≠ u.listed then
    match attempt with
    | .succeeds => 0
    | .fails _ => before + 1
  else before

/-- How many changes of a name have been refused since the last one that was written, or since the
ledger was opened. -/
def refusals (l : Ledger) (name : String) : List Trial → Nat
  | [] => 0
  | t :: earlier =>
    match t.operation with
    | .record _ _ => l.refusals name earlier
    | .addName new =>
      (l.after earlier).refusedAfter ⟨new, true⟩ t.attempt name (l.refusals name earlier)
    | .removeName old =>
      (l.after earlier).refusedAfter ⟨old, false⟩ t.attempt name (l.refusals name earlier)
    | .reopen _ => 0

/-- How a ledger belongs to the database that it was opened with, after a number of refusals for
each name. -/
structure Follows (s : Storage) (l : Ledger) (refused : String → Nat) : Prop where
  readable : l.storage.Readable
  spelled : ∀ name, l.storage.HoldsOtherwise name ↔ s.HoldsOtherwise name
  /-- A refused change turns the memory away from the database, and the next one turns it back. -/
  parity : ∀ name, ¬ s.HoldsOtherwise name →
    ((l.whitelist.has name = true ↔
      Whitelist.nameOf? name = some name ∧ l.storage.holdsName name = true) ↔ Even (refused name))

variable {s : Storage} {l : Ledger} {refused : String → Nat}

theorem storage_load {limit : Option Nat} (loads : load s limit = .ok l) : l.storage = s := by
  obtain ⟨_, _, _, _, rfl⟩ := load_eq_ok_iff.mp loads
  rfl

theorem follows_load {limit : Option Nat} (loads : load s limit = .ok l) :
    Follows s l fun _ => 0 := by
  have same := storage_load loads
  refine ⟨?_, fun name => by rw [same], fun name plain => ?_⟩
  · rw [same]
    exact (exists_load_iff limit).mp ⟨l, loads⟩
  · rw [has_of_load loads, same, or_iff_left plain]
    simp

theorem refusedAfter_change {u : Update} {name : String} (attempt : Attempt) (before : Nat)
    (trims : Whitelist.nameOf? u.name = some name) (changes : l.whitelist.has name ≠ u.listed) :
    l.refusedAfter u attempt name before =
      match attempt with
      | .succeeds => 0
      | .fails _ => before + 1 :=
  if_pos ⟨trims, changes⟩

theorem refusedAfter_other {u : Update} {name : String} (attempt : Attempt) (before : Nat)
    (other : Whitelist.nameOf? u.name ≠ some name) :
    l.refusedAfter u attempt name before = before :=
  if_neg fun both => other both.1

theorem refusedAfter_same {u : Update} {name : String} (attempt : Attempt) (before : Nat)
    (same : Whitelist.nameOf? u.name = some name → l.whitelist.has name = u.listed) :
    l.refusedAfter u attempt name before = before :=
  if_neg fun both => both.2 (same both.1)

theorem Follows.update (follows : Follows s l refused) (u : Update) (attempt : Attempt) :
    Follows s (l.update u attempt).2 fun name => l.refusedAfter u attempt name (refused name) := by
  have outcome := l.updates u attempt
  generalize l.update u attempt = answered at outcome
  obtain ⟨answer, next⟩ := answered
  dsimp only at outcome ⊢
  cases outcome with
  | blank none =>
    have counts (name : String) : l.refusedAfter u attempt name (refused name) = refused name :=
      refusedAfter_other attempt _ (by simp [none])
    simpa only [counts] using follows
  | @done trimmed trims same =>
    have counts (name : String) : l.refusedAfter u attempt name (refused name) = refused name := by
      refine refusedAfter_same attempt _ fun trims' => ?_
      cases trims.symm.trans trims'
      exact same
    simpa only [counts] using follows
  | @written trimmed trims changes succeeds =>
    have named := Whitelist.nameOf?_of_nameOf? trims
    refine ⟨follows.readable.putName trimmed u.listed, fun name => ?_, fun name plain => ?_⟩
    · exact (Storage.holdsOtherwise_putName named u.listed name).trans (follows.spelled name)
    · rw [Whitelist.has_put, Storage.holdsName_putName]
      by_cases own : name = trimmed
      · subst own
        rw [refusedAfter_change attempt _ trims changes, succeeds]
        simp [named]
      · have other : Whitelist.nameOf? u.name ≠ some name := by simpa [trims] using Ne.symm own
        rw [if_neg own, if_neg own, refusedAfter_other attempt _ other]
        exact follows.parity name plain
  | @refused trimmed reason trims changes refusal =>
    have named := Whitelist.nameOf?_of_nameOf? trims
    refine ⟨follows.readable, follows.spelled, fun name plain => ?_⟩
    have before := follows.parity name plain
    rw [Whitelist.has_put]
    by_cases own : name = trimmed
    · subst own
      have turned : u.listed = !l.whitelist.has name := Bool.eq_not_of_ne changes.symm
      rw [refusedAfter_change attempt _ trims changes, refusal, if_pos rfl, Nat.even_add_one,
        ← before, turned]
      cases l.whitelist.has name <;> simp [named]
    · have other : Whitelist.nameOf? u.name ≠ some name := by simpa [trims] using Ne.symm own
      rw [if_neg own, refusedAfter_other attempt _ other]
      exact before

theorem Follows.attempted (follows : Follows s l refused) (t : Trial) :
    Follows s (l.attempted t) fun name =>
      match t.operation with
      | .record _ _ => refused name
      | .addName new => l.refusedAfter ⟨new, true⟩ t.attempt name (refused name)
      | .removeName old => l.refusedAfter ⟨old, false⟩ t.attempt name (refused name)
      | .reopen _ => 0 := by
  obtain ⟨operation, attempt⟩ := t
  cases operation with
  | record records now =>
    cases attempt with
    | succeeds => exact ⟨follows.readable.putHistories _, follows.spelled, follows.parity⟩
    | fails reason => exact follows
  | addName name =>
    have next := follows.update ⟨name, true⟩ attempt
    rw [update_listed] at next
    exact next
  | removeName name =>
    have next := follows.update ⟨name, false⟩ attempt
    rw [update_not_listed] at next
    exact next
  | reopen limit =>
    obtain ⟨next, loads⟩ := (exists_load_iff limit).mpr follows.readable
    have fresh := follows_load loads
    have attempted : l.attempted ⟨.reopen limit, attempt⟩ = next := by
      simp only [Ledger.attempted, loads]
    rw [attempted]
    exact ⟨fresh.readable, fun name => (fresh.spelled name).trans (follows.spelled name),
      fun name plain => fresh.parity name (plain ∘ (follows.spelled name).mp)⟩

theorem follows_after (follows : Follows s l fun _ => 0) (trials : List Trial) :
    Follows s (l.after trials) fun name => l.refusals name trials := by
  induction trials with
  | nil => exact follows
  | cons t earlier ih =>
    have step := ih.attempted t
    obtain ⟨operation, attempt⟩ := t
    cases operation <;> exact step

/-- An update that fails with a blank name changes nothing, one that the database refuses changes
the memory alone, and repeating it changes nothing more. So after any operations, whichever of
their writes are refused, the database loads as the whitelist in memory exactly if every name that
is stored in another spelling is listed, and every other name had an even number of changes refused
since the last one that was written. -/
theorem whitelist_reloaded_iff {s : Storage} {limit : Option Nat} {first : Ledger}
    (opens : load s limit = .ok first) :
    (∀ (l next : Ledger) (u : Update) (attempt : Attempt) (e : LedgerError),
      l.update u attempt = (.error e, next) →
        next = { l with whitelist := next.whitelist } ∧
          (next.whitelist = l.whitelist ↔ e = .invalidName u.name) ∧
          ∀ retry, (next.update u retry).2 = next) ∧
    ∀ (trials : List Trial) (limit' : Option Nat),
      ∃ again, load (first.after trials).storage limit' = .ok again ∧
        (again.whitelist = (first.after trials).whitelist ↔
          ∀ name, (s.HoldsOtherwise name → (first.after trials).whitelist.has name = true) ∧
            (¬ s.HoldsOtherwise name → Even (first.refusals name trials))) := by
  refine ⟨fun _ _ _ _ _ => update_failed, fun trials limit' => ?_⟩
  have follows := follows_after (follows_load opens) trials
  obtain ⟨again, loads⟩ := (exists_load_iff limit').mpr follows.readable
  have loaded (name : String) : again.whitelist.has name = true ↔
      Whitelist.nameOf? name = some name ∧
        ((first.after trials).storage.holdsName name = true ∨ s.HoldsOtherwise name) := by
    rw [has_of_load loads, follows.spelled]
  refine ⟨again, loads, ?_⟩
  have named (name : String) : again.whitelist.has name = (first.after trials).whitelist.has name ↔
      (s.HoldsOtherwise name → (first.after trials).whitelist.has name = true) ∧
        (¬ s.HoldsOtherwise name → Even (first.refusals name trials)) := by
    by_cases other : s.HoldsOtherwise name
    · have listed := (loaded name).mpr ⟨Storage.nameOf?_of_holdsOtherwise other, .inr other⟩
      rw [listed, eq_comm]
      simp [other]
    · simp only [other, false_implies, not_false_eq_true, true_implies, true_and]
      rw [← follows.parity name other, Bool.eq_iff_iff, loaded, or_iff_left other]
      exact iff_comm
  constructor
  · intro same name
    exact (named name).mp (by rw [same])
  · intro each
    exact Whitelist.eq_of_has fun name => (named name).mpr (each name)

end Ledger

def Sample.ahead : Ledger :=
  ((Ledger.new none).update ⟨"log", true⟩ (.fails "full")).2

def Sample.padded : Ledger where
  storage := ⟨.empty, Tree.empty.insert (Text.Utf8.encode " log ") []⟩
  book := .new none
  whitelist := .ofNames ["log"]

def Sample.refusedTwice : List Ledger.Trial :=
  [⟨.removeName "get", .fails "full"⟩, ⟨.addName "get", .fails "full"⟩]

theorem whitelist_reloaded_refused_twice :
    (Sample.ahead.storage = (Ledger.new none).storage ∧
      Sample.ahead.whitelist ≠ (Ledger.new none).whitelist ∧
      ∀ retry, (Sample.ahead.update ⟨"log", true⟩ retry).2 = Sample.ahead) ∧
    ∃ again, Ledger.load (Sample.padded.after Sample.refusedTwice).storage none = .ok again ∧
      again.whitelist = (Sample.padded.after Sample.refusedTwice).whitelist := by
  have opens : Ledger.load Sample.padded.storage none = .ok Sample.padded := rfl
  obtain ⟨failing, reloading⟩ := Ledger.whitelist_reloaded_iff opens
  constructor
  · have failed : (Ledger.new none).update ⟨"log", true⟩ (.fails "full") =
        (.error (.database "full"), Sample.ahead) :=
      rfl
    obtain ⟨stored, kept, again⟩ := failing _ _ _ _ _ failed
    exact ⟨by simpa using congrArg Ledger.storage stored, (nomatch kept.mp ·), again⟩
  · have trims : Whitelist.nameOf? "get" = some "get" := by decide +kernel
    obtain ⟨again, loads, law⟩ := reloading Sample.refusedTwice none
    refine ⟨again, loads, law.mpr fun name => ⟨?_, fun _ => ?_⟩⟩
    · rintro ⟨entry, member, _, spelled, read, names⟩
      cases List.mem_singleton.mp member
      cases read
      cases names
      decide +kernel
    · by_cases own : name = "get"
      · subst own
        decide +kernel
      · have other (listed : Bool) :
            Whitelist.nameOf? (Ledger.Update.mk "get" listed).name ≠ some name := by
          rw [trims]
          simpa using Ne.symm own
        simp only [Ledger.refusals, Sample.refusedTwice, Ledger.refusedAfter_other _ _ (other _),
          Even.zero]

/-- A new name that the database refuses is listed in memory, and adding it again does not store it.
A name with blanks around it that is taken out of the whitelist is still stored. -/
theorem whitelist_not_reloaded :
    (((Ledger.new none).update ⟨"log", true⟩ (.fails "full")).1 = .error (.database "full") ∧
      Sample.ahead.whitelist ≠ (Ledger.new none).whitelist ∧
      (Sample.ahead.update ⟨"log", true⟩ .succeeds).1 = .ok false ∧
      ∃ again,
        Ledger.load (Sample.ahead.update ⟨"log", true⟩ .succeeds).2.storage none = .ok again ∧
        again.whitelist ≠ Sample.ahead.whitelist) ∧
    Ledger.load Sample.padded.storage none = .ok Sample.padded ∧
    (Sample.padded.update ⟨"log", false⟩ .succeeds).1 = .ok true ∧
    ∃ again,
      Ledger.load (Sample.padded.update ⟨"log", false⟩ .succeeds).2.storage none = .ok again ∧
      again.whitelist ≠ (Sample.padded.update ⟨"log", false⟩ .succeeds).2.whitelist := by
  refine ⟨⟨rfl, by decide +kernel, rfl, _, rfl, by decide +kernel⟩, rfl, rfl, _, rfl,
    by decide +kernel⟩

end CostWatch

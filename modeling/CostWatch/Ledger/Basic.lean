import CostWatch.Ledger.Storage

/-!
The ledger: histories and whitelist in memory, together with the database that outlives them.

Histories are written before they change in memory. A name changes in memory before it is written,
so that an update of the whitelist that the database refuses still shows in memory.
-/

set_option autoImplicit false

namespace CostWatch

structure Ledger where
  storage : Storage
  book : HistoryBook
  whitelist : Whitelist

namespace Ledger

def new (limit : Option Nat) : Ledger :=
  ⟨.empty, .new limit, .empty⟩

def load (storage : Storage) (limit : Option Nat) : Except LedgerError Ledger := do
  let histories ← storage.loadHistories
  let whitelist ← storage.loadWhitelist
  let book := histories.foldl (fun b entry => b.restore entry.1 entry.2) (HistoryBook.new limit)
  .ok ⟨storage, book, whitelist⟩

def history? (l : Ledger) (id : MethodId) : Option History :=
  l.book.history? id

/-- Takes up a pass of the analysis; answers the methods whose histories changed. If the database
refuses them, nothing changes. -/
def record (l : Ledger) (records : List Record) (now : Moment) (attempt : Attempt) :
    Except LedgerError (List MethodId × Ledger) := do
  let staged := l.book.stage records now
  let storage ← l.storage.storeHistories staged attempt
  .ok (staged.map (·.1), { l with storage, book := l.book.commit staged })

def nameOf (name : String) : Except LedgerError String :=
  match Whitelist.nameOf? name with
  | some trimmed => .ok trimmed
  | none => .error (.invalidName name)

/-- Adds a name to the whitelist; answers whether it was new. -/
def addName (l : Ledger) (name : String) (attempt : Attempt) : Except LedgerError Bool × Ledger :=
  match nameOf name with
  | .error e => (.error e, l)
  | .ok trimmed =>
    if l.whitelist.has trimmed then (.ok false, l)
    else
      let l := { l with whitelist := l.whitelist.insert trimmed }
      match l.storage.insertName trimmed attempt with
      | .error e => (.error e, l)
      | .ok (_, storage) => (.ok true, { l with storage })

def removeName (l : Ledger) (name : String) (attempt : Attempt) :
    Except LedgerError Bool × Ledger :=
  match nameOf name with
  | .error e => (.error e, l)
  | .ok trimmed =>
    if l.whitelist.has trimmed then
      let l := { l with whitelist := l.whitelist.erase trimmed }
      match l.storage.eraseName trimmed attempt with
      | .error e => (.error e, l)
      | .ok (_, storage) => (.ok true, { l with storage })
    else (.ok false, l)

/-! What is done to the whitelist leaves the histories as they are. -/

@[simp] theorem book_addName (l : Ledger) (name : String) (attempt : Attempt) :
    (l.addName name attempt).2.book = l.book := by
  unfold addName
  split
  · rfl
  · dsimp only
    split
    · rfl
    · split <;> rfl

@[simp] theorem book_removeName (l : Ledger) (name : String) (attempt : Attempt) :
    (l.removeName name attempt).2.book = l.book := by
  unfold removeName
  split
  · rfl
  · dsimp only
    split
    · split <;> rfl
    · rfl

def flush (_ : Ledger) (attempt : Attempt) : Except LedgerError Unit :=
  attempt.write ()

def description (l : Ledger) : String :=
  s!"CostLedger \x7b histories: {l.book.size}, whitelist: Whitelist \x7b names: \x7b" ++
    ", ".intercalate (l.whitelist.names.map Text.quote) ++ "\x7d \x7d \x7d"

end Ledger

end CostWatch

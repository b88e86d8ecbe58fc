import CostWatch.Cost.History
import CostWatch.Cost.Whitelist
import CostWatch.Json.Printer

/-!
The database behind the ledger: two ordered maps from bytes to bytes, one with histories as JSON
under the keys of their methods, the other with the names of the whitelist as keys.

A write takes effect as a whole or fails with a database error and changes nothing; which of both
happens is told by an `Attempt`.
-/

set_option autoImplicit false

namespace CostWatch

inductive Attempt where
  | succeeds
  | fails (reason : String)
  deriving DecidableEq, Repr

inductive LedgerError where
  | database (reason : String)
  | serialization (fault : Json.Fault)
  | invalidName (name : String)
  | corruptEntry (reason : String)

def LedgerError.message : LedgerError → String
  | .database reason => "Database error: " ++ reason
  | .serialization fault => "Serialization error: " ++ fault.message
  | .invalidName name => "Invalid method name: " ++ Text.quote name
  | .corruptEntry reason => "Corrupt ledger entry: " ++ reason

def Attempt.write {α : Type} (attempt : Attempt) (result : α) : Except LedgerError α :=
  match attempt with
  | .succeeds => .ok result
  | .fails reason => .error (.database reason)

structure Tree where
  entries : List (List UInt8 × List UInt8)
  increasing : entries.Pairwise (·.1 < ·.1)
  deriving DecidableEq

namespace Tree

def empty : Tree := ⟨[], .nil⟩

def insertEntry (key value : List UInt8) :
    List (List UInt8 × List UInt8) → List (List UInt8 × List UInt8)
  | [] => [(key, value)]
  | (k, v) :: rest =>
    if key = k then (key, value) :: rest
    else if key < k then (key, value) :: (k, v) :: rest
    else (k, v) :: insertEntry key value rest

theorem mem_keys_insertEntry {key value other : List UInt8}
    {entries : List (List UInt8 × List UInt8)} :
    other ∈ (insertEntry key value entries).map (·.1) ↔
      other = key ∨ other ∈ entries.map (·.1) := by
  induction entries with
  | nil => simp [insertEntry]
  | cons entry rest ih =>
    rw [insertEntry]
    split
    · next same => simp [same]
    · split
      · simp
      · rw [List.map_cons, List.map_cons, List.mem_cons, List.mem_cons, ih]
        exact or_left_comm

theorem increasing_insertEntry {key value : List UInt8}
    {entries : List (List UInt8 × List UInt8)} (increasing : entries.Pairwise (·.1 < ·.1)) :
    (insertEntry key value entries).Pairwise (·.1 < ·.1) := by
  induction entries with
  | nil => exact .cons (by simp) .nil
  | cons entry rest ih =>
    have ⟨least, tail⟩ := List.pairwise_cons.1 increasing
    rw [insertEntry]
    split
    · next same => exact .cons (fun other member => same ▸ least other member) tail
    · next different =>
      split
      · next before =>
        refine .cons ?_ increasing
        intro other member
        rcases List.mem_cons.1 member with same | later
        · exact same ▸ before
        · exact List.lt_trans before (least other later)
      · next notBefore =>
        refine .cons ?_ (ih tail)
        intro other member
        rcases mem_keys_insertEntry.1 (List.mem_map_of_mem member) with same | later
        · exact same ▸ Std.lt_of_le_of_ne notBefore (Ne.symm different)
        · obtain ⟨found, member, same⟩ := List.mem_map.1 later
          exact same ▸ least found member

def insert (t : Tree) (key value : List UInt8) : Tree :=
  ⟨insertEntry key value t.entries, increasing_insertEntry t.increasing⟩

def erase (t : Tree) (key : List UInt8) : Tree :=
  ⟨t.entries.filter fun entry => entry.1 ≠ key, t.increasing.filter _⟩

def find? (t : Tree) (key : List UInt8) : Option (List UInt8) :=
  t.entries.lookup key

def contains (t : Tree) (key : List UInt8) : Bool :=
  (t.find? key).isSome

theorem lookup_insertEntry (key other value : List UInt8)
    (entries : List (List UInt8 × List UInt8)) :
    (insertEntry key value entries).lookup other =
      if other = key then some value else entries.lookup other := by
  induction entries with
  | nil => simp [insertEntry, Table.lookup_cons_ite]
  | cons entry rest ih =>
    obtain ⟨k, v⟩ := entry
    rw [insertEntry]
    split
    · next hk => simp only [Table.lookup_cons_ite, hk]; split <;> rfl
    · next hk =>
      split
      · exact Table.lookup_cons_ite key other value _
      · by_cases h : other = k
        · simp [h, Ne.symm hk]
        · simp [Table.lookup_cons_ite, h, ih]

@[simp] theorem find?_insert (t : Tree) (key other value : List UInt8) :
    (t.insert key value).find? other = if other = key then some value else t.find? other :=
  lookup_insertEntry key other value t.entries

end Tree

structure Storage where
  histories : Tree
  whitelist : Tree
  deriving DecidableEq

namespace Storage

open Json

def empty : Storage := ⟨.empty, .empty⟩

def encodeHistory (h : History) : List UInt8 :=
  Text.Utf8.encode (Record.listToValue h).compact

def decodeHistory (bytes : List UInt8) : Except Fault History :=
  match Record.listSchema.decode (symbolsOfBytes bytes) with
  | .ok items => .ok (List.map Record.ofData items)
  | .error fault => .error fault

def storeHistories (s : Storage) (batch : StagedHistories) (attempt : Attempt) :
    Except LedgerError Storage :=
  attempt.write { s with
    histories := batch.foldl
      (fun t entry => t.insert (Text.Utf8.encode entry.1.key) (encodeHistory entry.2)) s.histories }

def historyOfEntry (entry : List UInt8 × List UInt8) : Except LedgerError (MethodId × History) :=
  match Text.Utf8.decode entry.1 with
  | .error _ => .error (.corruptEntry "history key is not UTF-8")
  | .ok key =>
    match decodeHistory entry.2 with
    | .error fault => .error (.serialization fault)
    | .ok history => .ok (⟨key⟩, history)

/-- Every history, in the order of the keys. -/
def loadHistories (s : Storage) : Except LedgerError (List (MethodId × History)) :=
  s.histories.entries.mapM historyOfEntry

/-- Adds a name to the stored whitelist; answers whether it was new. -/
def insertName (s : Storage) (name : String) (attempt : Attempt) :
    Except LedgerError (Bool × Storage) :=
  let key := Text.Utf8.encode name
  attempt.write (!s.whitelist.contains key, { s with whitelist := s.whitelist.insert key [] })

def eraseName (s : Storage) (name : String) (attempt : Attempt) :
    Except LedgerError (Bool × Storage) :=
  let key := Text.Utf8.encode name
  attempt.write (s.whitelist.contains key, { s with whitelist := s.whitelist.erase key })

def nameOfEntry (entry : List UInt8 × List UInt8) : Except LedgerError String :=
  match Text.Utf8.decode entry.1 with
  | .error _ => .error (.corruptEntry "whitelist key is not UTF-8")
  | .ok name => .ok name

def loadWhitelist (s : Storage) : Except LedgerError Whitelist := do
  let names ← s.whitelist.entries.mapM nameOfEntry
  .ok (Whitelist.ofNames names)

def description (s : Storage) : String :=
  s!"Storage \x7b histories: {s.histories.entries.length}, whitelisted: " ++
    s!"{s.whitelist.entries.length} \x7d"

end Storage

end CostWatch

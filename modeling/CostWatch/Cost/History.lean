import CostWatch.Cost.Moment
import CostWatch.Cost.Record
import CostWatch.Table

/-!
Histories: for each method the costs that analyses found, the most recent one first.

A pass of the analysis adds an entry for a method only if its execution cost differs from the one
found last. Of several records with one key only the first one of the pass counts. Passes are taken
up in two steps, `stage` and `commit`, so that the changes can be written between them.
-/

set_option autoImplicit false

namespace CostWatch

/-- The costs of a method, the most recent one first. -/
abbrev History := List Record

abbrev StagedHistories := List (MethodId × History)

structure HistoryBook where
  histories : Table MethodId History
  /-- The greatest number of entries of a history. -/
  limit : Option Nat

namespace HistoryBook

def defaultLimit : Nat := 50

/-- A book without histories. At least one entry of a history is kept, whatever the limit. -/
def new (limit : Option Nat) : HistoryBook :=
  ⟨.empty, limit.map (max · 1)⟩

def capped (book : HistoryBook) (history : History) : History :=
  match book.limit with
  | some n => history.take n
  | none => history

def history? (book : HistoryBook) (id : MethodId) : Option History :=
  book.histories.find? id

/-- The first record of each key, in order, `seen` being the keys met before. -/
def firsts (seen : List MethodId) : List Record → List Record
  | [] => []
  | r :: rest =>
    if seen.contains r.id then firsts seen rest else r :: firsts (r.id :: seen) rest

/-- The history of a record's method with the record, unless its latest entry has the same cost. -/
def stageRecord (book : HistoryBook) (time : String) (r : Record) : Option (MethodId × History) :=
  let old := (book.history? r.id).getD []
  let unchanged := match old with
    | [] => false
    | latest :: _ => latest.sameExecution r
  if unchanged then none else some (r.id, book.capped (r.stamped time :: old))

def stage (book : HistoryBook) (records : List Record) (at' : Moment) : StagedHistories :=
  (firsts [] records).filterMap (book.stageRecord at'.text)

def install (book : HistoryBook) (id : MethodId) (history : History) : HistoryBook :=
  { book with histories := book.histories.put id history }

@[simp] theorem history?_install (book : HistoryBook) (id other : MethodId) (history : History) :
    (book.install id history).history? other =
      if other = id then some history else book.history? other :=
  Table.find?_put book.histories id other history

@[simp] theorem limit_install (book : HistoryBook) (id : MethodId) (history : History) :
    (book.install id history).limit = book.limit :=
  rfl

def commit (book : HistoryBook) (staged : StagedHistories) : HistoryBook :=
  staged.foldl (fun b entry => b.install entry.1 entry.2) book

def restore (book : HistoryBook) (id : MethodId) (history : History) : HistoryBook :=
  book.install id (book.capped history)

def size (book : HistoryBook) : Nat :=
  book.histories.size

end HistoryBook

end CostWatch

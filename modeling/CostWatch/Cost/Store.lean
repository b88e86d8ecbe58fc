import CostWatch.Cost.Record
import CostWatch.Table

/-!
The costs at hand: for each analysed document its list of records, and the list on display. A list
on display stays as it is when the list of its document changes.
-/

set_option autoImplicit false

namespace CostWatch

structure Store where
  lists : Table Document (List Record)
  /-- The list on display. -/
  shown : Option (List Record)

namespace Store

def empty : Store := ⟨.empty, none⟩

def get? (s : Store) (d : Document) : Option (List Record) :=
  s.lists.find? d

def set (s : Store) (d : Document) (records : List Record) : Store :=
  { s with lists := s.lists.put d records }

def display (s : Store) (records : List Record) : Store :=
  { s with shown := some records }

def displayed (s : Store) : List Record :=
  s.shown.getD []

def hide (s : Store) : Store :=
  { s with shown := none }

def erase (s : Store) (d : Document) : Store :=
  { s with lists := s.lists.erase d }

def documents (s : Store) : List Document :=
  s.lists.keys

def size (s : Store) : Nat :=
  s.lists.size

/-! What each operation does to the lists -/

@[simp] theorem get?_empty (d : Document) : empty.get? d = none :=
  rfl

@[simp] theorem get?_set (s : Store) (d e : Document) (records : List Record) :
    (s.set d records).get? e = if e = d then some records else s.get? e :=
  Table.find?_put s.lists d e records

@[simp] theorem get?_erase (s : Store) (d e : Document) :
    (s.erase d).get? e = if e = d then none else s.get? e :=
  Table.find?_erase s.lists d e

@[simp] theorem get?_display (s : Store) (d : Document) (records : List Record) :
    (s.display records).get? d = s.get? d :=
  rfl

@[simp] theorem get?_hide (s : Store) (d : Document) : s.hide.get? d = s.get? d :=
  rfl

end Store

end CostWatch

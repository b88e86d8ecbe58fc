import CostWatch.Cost.Record

/-!
Ranges of a text: from one point to another, the second one excluded. A point is a line and a number
of bytes in that line, both counted from zero.
-/

set_option autoImplicit false

namespace CostWatch

structure Point where
  line : UInt32
  character : UInt32
  deriving DecidableEq, Repr

structure Range where
  start : Point
  finish : Point
  deriving DecidableEq, Repr

open Json

def Point.schema : Schema :=
  .record "struct Position"
    (.cons "line" .required .word32 <| .cons "character" .required .word32 .nil)

def Range.schema : Schema :=
  .record "struct Range"
    (.cons "start" .required Point.schema <| .cons "end" .required Point.schema .nil)

def Point.ofData : Point.schema.Data → Point
  | (line, character, ()) => ⟨UInt32.ofNat line, UInt32.ofNat character⟩

def Point.data (p : Point) : Point.schema.Data :=
  (p.line.toNat, p.character.toNat, ())

def Range.ofData : Range.schema.Data → Range
  | (start, finish, ()) => ⟨.ofData start, .ofData finish⟩

def Range.data (r : Range) : Range.schema.Data :=
  (r.start.data, r.finish.data, ())

def Range.toValue (r : Range) : Value :=
  Range.schema.write r.data

end CostWatch

import CostWatch.Java.Declarations
import CostWatch.Proofs.Source.Edits

/-!
Stretches of a text: from one of its places to another.

Places of one text are told apart by their bytes alone. As long as the lines and the columns of a
text can be counted in 32 bits, its points are in the same order.
-/

set_option autoImplicit false

namespace CostWatch

instance : LE Point where
  le a b := a.line < b.line ∨ a.line = b.line ∧ a.character ≤ b.character

namespace Java

/-! Marks -/

namespace Mark

def ofText (text : String) : Mark :=
  after ⟨0, 0, 0⟩ text.toList

/-- A mark is a place of a text, between two of its characters. -/
def IsOf (text : String) (mark : Mark) : Prop :=
  ∃ front back, text = front ++ back ∧ mark = ofText front

variable {text front back : String} {a b mark : Mark} {cs ds : List Char}

theorem after_append : mark.after (cs ++ ds) = (mark.after cs).after ds :=
  List.foldl_append

theorem byte_next (c : Char) : (mark.next c).byte = mark.byte + c.utf8Size := by
  rw [next]
  split <;> rfl

theorem byte_after : (mark.after cs).byte = mark.byte + (String.ofList cs).utf8ByteSize := by
  induction cs generalizing mark with
  | nil => rfl
  | cons c rest ih =>
    rw [after, List.foldl_cons, ← after, ih, byte_next, ofList_utf8ByteSize_cons, Nat.add_assoc]

@[simp] theorem byte_ofText : (ofText text).byte = text.utf8ByteSize := by
  rw [ofText, byte_after, String.ofList_toList, Nat.zero_add]

theorem ofText_append : ofText (front ++ back) = (ofText front).after back.toList := by
  rw [ofText, String.toList_append, after_append, ofText]

theorem line_le_after : mark.line < (mark.after cs).line ∨
    mark.line = (mark.after cs).line ∧ mark.column ≤ (mark.after cs).column := by
  induction cs generalizing mark with
  | nil => exact .inr ⟨rfl, Nat.le_refl _⟩
  | cons c rest ih =>
    have further := @ih (mark.next c)
    have step : mark.line < (mark.next c).line ∨
        mark.line = (mark.next c).line ∧ mark.column ≤ (mark.next c).column := by
      rw [next]
      split
      · exact .inl (Nat.lt_succ_self _)
      · exact .inr ⟨rfl, Nat.le_add_right _ _⟩
    rw [after, List.foldl_cons, ← after]
    omega

/-- There are no more lines than bytes, and no more bytes in a line than in the text. -/
theorem small_after (small : mark.line ≤ mark.byte ∧ mark.column ≤ mark.byte) :
    (mark.after cs).line ≤ (mark.after cs).byte ∧
      (mark.after cs).column ≤ (mark.after cs).byte := by
  induction cs generalizing mark with
  | nil => exact small
  | cons c rest ih =>
    refine ih ?_
    have some := c.utf8Size_pos
    rw [next]
    split <;> dsimp only <;> omega

theorem IsOf.byte_le (isOf : IsOf text mark) : mark.byte ≤ text.utf8ByteSize := by
  obtain ⟨front, back, rfl, rfl⟩ := isOf
  rw [byte_ofText, String.utf8ByteSize_append]
  exact Nat.le_add_right _ _

theorem IsOf.small (isOf : IsOf text mark) : mark.line ≤ mark.byte ∧ mark.column ≤ mark.byte := by
  obtain ⟨front, back, rfl, rfl⟩ := isOf
  exact small_after ⟨Nat.le_refl _, Nat.le_refl _⟩

/-- The later one of two places of a text has the text in between before it. -/
theorem IsOf.exists_after (isOf : IsOf text a) (isOf' : IsOf text b) (before : a.byte ≤ b.byte) :
    ∃ part : String, b = a.after part.toList := by
  obtain ⟨front, back, rfl, rfl⟩ := isOf
  obtain ⟨front', back', split, rfl⟩ := isOf'
  rw [byte_ofText, byte_ofText] at before
  obtain ⟨between, rfl, _⟩ := exists_append_of_size_le split before
  exact ⟨between, ofText_append⟩

theorem IsOf.eq_of_byte_eq (isOf : IsOf text a) (isOf' : IsOf text b) (same : a.byte = b.byte) :
    a = b := by
  obtain ⟨between, rfl⟩ := isOf.exists_after isOf' (Nat.le_of_eq same)
  rw [byte_after, String.ofList_toList] at same
  have empty : between = "" := String.utf8ByteSize_eq_zero_iff.mp (by omega)
  rw [empty]
  rfl

theorem IsOf.point_le (isOf : IsOf text a) (isOf' : IsOf text b)
    (short : text.utf8ByteSize < UInt32.size) (before : a.byte ≤ b.byte) : a.point ≤ b.point := by
  have fits := isOf'.byte_le
  have ⟨lines, columns⟩ := isOf.small
  have ⟨lines', columns'⟩ := isOf'.small
  obtain ⟨between, further⟩ := isOf.exists_after isOf' before
  have later : a.line < b.line ∨ a.line = b.line ∧ a.column ≤ b.column :=
    further ▸ line_le_after
  -- none of the numbers is cut off at 32 bits
  have whole (n : Nat) (small : n < UInt32.size) : (UInt32.ofNat n).toNat = n :=
    UInt32.toNat_ofNat_of_lt' small
  change UInt32.ofNat _ < UInt32.ofNat _ ∨
    UInt32.ofNat _ = UInt32.ofNat _ ∧ UInt32.ofNat _ ≤ UInt32.ofNat _
  rw [UInt32.lt_iff_toNat_lt, UInt32.le_iff_toNat_le, whole _ (by omega), whole _ (by omega),
    whole _ (by omega), whole _ (by omega)]
  exact later.imp_right fun ⟨line, column⟩ => ⟨congrArg UInt32.ofNat line, column⟩

end Mark

/-! Stretches -/

/-- From one place of a text to another, which is excluded. -/
structure Stretch where
  start : Mark
  stop : Mark
  deriving DecidableEq, Repr

namespace Stretch

def span (stretch : Stretch) : Span := ⟨stretch.start.byte, stretch.stop.byte⟩

def range (stretch : Stretch) : Range := ⟨stretch.start.point, stretch.stop.point⟩

def Holds (text part : String) (stretch : Stretch) : Prop :=
  ∃ front back, text = front ++ part ++ back ∧ stretch = ⟨.ofText front, .ofText (front ++ part)⟩

variable {text part : String} {stretch : Stretch}

theorem Holds.start (holds : stretch.Holds text part) : stretch.start.IsOf text := by
  obtain ⟨front, back, rfl, rfl⟩ := holds
  exact ⟨front, part ++ back, String.append_assoc .., rfl⟩

theorem Holds.stop (holds : stretch.Holds text part) : stretch.stop.IsOf text := by
  obtain ⟨front, back, rfl, rfl⟩ := holds
  exact ⟨front ++ part, back, rfl, rfl⟩

theorem Holds.le (holds : stretch.Holds text part) : stretch.start.byte ≤ stretch.stop.byte := by
  obtain ⟨front, back, rfl, rfl⟩ := holds
  rw [Mark.byte_ofText, Mark.byte_ofText, String.utf8ByteSize_append]
  exact Nat.le_add_right _ _

theorem Holds.text? (holds : stretch.Holds text part) : stretch.span.text? text = some part := by
  obtain ⟨front, back, rfl, rfl⟩ := holds
  refine Span.text?_eq_some_iff.mpr ⟨front, back, rfl, Mark.byte_ofText, ?_⟩
  exact Mark.byte_ofText.trans (String.utf8ByteSize_append ..)

theorem exists_holds {first last : Mark} (isOf : first.IsOf text) (isOf' : last.IsOf text)
    (inOrder : first.byte ≤ last.byte) : ∃ part, Holds text part ⟨first, last⟩ := by
  obtain ⟨front, _, rfl, rfl⟩ := isOf
  obtain ⟨front', back, split, rfl⟩ := isOf'
  rw [Mark.byte_ofText, Mark.byte_ofText] at inOrder
  obtain ⟨part, rfl, rfl⟩ := exists_append_of_size_le split inOrder
  exact ⟨part, front, back, split, rfl⟩

end Stretch

end Java

end CostWatch

import CostWatch.Source.Declaration
import Mathlib.Data.List.Basic

/-!
Spans of a text that is edited in one place.

A span stands for the part of a text with so many bytes before it. An edit puts one text into the
place of another one. A span on one side of that place has the same text afterwards, be it where it
was or further on, and in a span that contains the place the one text has been put for the other.
-/

set_option autoImplicit false

namespace CostWatch

/-! What a span stands for -/

theorem ofList_utf8ByteSize_cons (c : Char) (cs : List Char) :
    (String.ofList (c :: cs)).utf8ByteSize = c.utf8Size + (String.ofList cs).utf8ByteSize := by
  rw [String.ofList_cons, String.utf8ByteSize_append, String.utf8ByteSize_singleton]

theorem cutBytes?_eq_some_iff {count : Nat} {cs front back : List Char} :
    cutBytes? count cs = some (front, back) ↔
      cs = front ++ back ∧ (String.ofList front).utf8ByteSize = count := by
  -- the characters are cut off one by one, each with its bytes
  induction cs generalizing count front with
  | nil =>
    rw [cutBytes?]
    split
    · next none =>
      subst none
      simp only [Option.some.injEq, Prod.mk.injEq, List.nil_eq, List.append_eq_nil_iff]
      constructor
      · rintro ⟨rfl, rfl⟩
        exact ⟨⟨rfl, rfl⟩, rfl⟩
      · rintro ⟨⟨rfl, rfl⟩, _⟩
        exact ⟨rfl, rfl⟩
    · next some =>
      refine ⟨nofun, fun ⟨same, size⟩ => absurd ?_ some⟩
      rw [(List.append_eq_nil_iff.mp same.symm).1] at size
      exact size.symm
  | cons c rest ih =>
    have positive := Char.utf8Size_pos c
    rw [cutBytes?]
    split
    · next none =>
      subst none
      cases front with
      | nil =>
        simp [eq_comm]
      | cons d front =>
        refine ⟨nofun, fun ⟨same, size⟩ => ?_⟩
        rw [ofList_utf8ByteSize_cons] at size
        have := Char.utf8Size_pos d
        omega
    · next some =>
      cases front with
      | nil =>
        refine ⟨fun cut => ?_, fun ⟨_, size⟩ => absurd size.symm some⟩
        split at cut
        · obtain ⟨_, _, shorter⟩ := Option.map_eq_some_iff.mp cut
          cases shorter
        · cases cut
      | cons d front =>
        rw [ofList_utf8ByteSize_cons]
        split
        · next fits =>
          rw [Option.map_eq_some_iff]
          constructor
          · rintro ⟨⟨f, b⟩, cut, same⟩
            cases same
            obtain ⟨rfl, size⟩ := ih.mp cut
            exact ⟨rfl, by omega⟩
          · rintro ⟨same, size⟩
            obtain ⟨rfl, rfl⟩ := List.cons.inj same
            exact ⟨(front, back), ih.mpr ⟨rfl, by omega⟩, rfl⟩
        · next tooLong =>
          refine ⟨nofun, fun ⟨same, size⟩ => ?_⟩
          obtain ⟨rfl, rfl⟩ := List.cons.inj same
          omega

theorem Span.text?_eq_some_iff {span : Span} {text part : String} :
    span.text? text = some part ↔
      ∃ front back, text = front ++ part ++ back ∧
        span.start = front.utf8ByteSize ∧
        span.stop = front.utf8ByteSize + part.utf8ByteSize := by
  rw [Span.text?]
  constructor
  · intro found
    split at found
    · next inOrder =>
      obtain ⟨⟨front, others⟩, first, found⟩ := Option.bind_eq_some_iff.mp found
      obtain ⟨⟨part', back⟩, second, same⟩ := Option.bind_eq_some_iff.mp found
      obtain ⟨rfl⟩ := Option.some.inj same
      obtain ⟨split, start⟩ := cutBytes?_eq_some_iff.mp first
      obtain ⟨rfl, size⟩ := cutBytes?_eq_some_iff.mp second
      refine ⟨String.ofList front, String.ofList back, ?_, start.symm, by omega⟩
      rw [← String.ofList_append, ← String.ofList_append, List.append_assoc, ← split,
        String.ofList_toList]
    · cases found
  · rintro ⟨front, back, rfl, start, stop⟩
    have first : cutBytes? span.start (front ++ part ++ back).toList =
        some (front.toList, part.toList ++ back.toList) :=
      cutBytes?_eq_some_iff.mpr ⟨by simp, by rw [String.ofList_toList, start]⟩
    have second : cutBytes? (span.stop - span.start) (part.toList ++ back.toList) =
        some (part.toList, back.toList) :=
      cutBytes?_eq_some_iff.mpr ⟨rfl, by rw [String.ofList_toList]; omega⟩
    rw [if_pos (by omega), first]
    simp [second]

/-- Of two beginnings of a text, the shorter one begins the other. -/
theorem exists_append_of_size_le {a b c d : String} (same : a ++ b = c ++ d)
    (shorter : a.utf8ByteSize ≤ c.utf8ByteSize) : ∃ m, c = a ++ m ∧ b = m ++ d := by
  rw [← String.toList_inj, String.toList_append, String.toList_append] at same
  rcases List.append_eq_append_iff.mp same with ⟨m, first, last⟩ | ⟨m, first, last⟩
  · exact ⟨String.ofList m, by simp [← String.toList_inj, first],
      by simp [← String.toList_inj, last]⟩
  · have longer : a = c ++ String.ofList m := by simp [← String.toList_inj, first]
    have empty : String.ofList m = "" := by
      rw [longer, String.utf8ByteSize_append] at shorter
      rw [← String.utf8ByteSize_eq_zero_iff]
      omega
    have others : d = String.ofList m ++ b := by simp [← String.toList_inj, last]
    rw [empty] at longer others
    exact ⟨"", by simp [longer], by simp [others]⟩

/-! Edits -/

/-- A change in one place of a text: between what is in front of it and what is behind it, one text
takes the place of another. -/
structure Edit where
  front : String
  old : String
  new : String
  back : String
  someOld : 0 < old.utf8ByteSize
  someNew : 0 < new.utf8ByteSize

namespace Edit

variable (e : Edit)

def before : String := e.front ++ e.old ++ e.back

def after : String := e.front ++ e.new ++ e.back

def reversed : Edit :=
  ⟨e.front, e.new, e.old, e.back, e.someNew, e.someOld⟩

def oldSpan : Span := ⟨e.front.utf8ByteSize, e.front.utf8ByteSize + e.old.utf8ByteSize⟩

def newSpan : Span := ⟨e.front.utf8ByteSize, e.front.utf8ByteSize + e.new.utf8ByteSize⟩

def Outside (n : Nat) : Prop :=
  n ≤ e.front.utf8ByteSize ∨ e.front.utf8ByteSize + e.old.utf8ByteSize ≤ n

instance (n : Nat) : Decidable (e.Outside n) :=
  inferInstanceAs (Decidable (_ ∨ _))

def carry (n : Nat) : Nat :=
  if n ≤ e.front.utf8ByteSize then n else n + e.new.utf8ByteSize - e.old.utf8ByteSize

def carried (span : Span) : Span :=
  ⟨e.carry span.start, e.carry span.stop⟩

/-- A span contains the place of an edit, with a certain text in front of it and another one behind
it. -/
def Within (pre post : String) (span : Span) : Prop :=
  ∃ front back, e.front = front ++ pre ∧ e.back = post ++ back ∧
    span = ⟨front.utf8ByteSize, front.utf8ByteSize + (pre ++ e.old ++ post).utf8ByteSize⟩

variable {e} {span : Span} {n : Nat}

theorem carry_of_le (early : n ≤ e.front.utf8ByteSize) : e.carry n = n :=
  if_pos early

theorem carry_of_ge (late : e.front.utf8ByteSize + e.old.utf8ByteSize ≤ n) :
    e.carry n = n + e.new.utf8ByteSize - e.old.utf8ByteSize := by
  have some := e.someOld
  exact if_neg (by omega)

theorem reversed_carry (outside : e.Outside n) :
    e.reversed.Outside (e.carry n) ∧ e.reversed.carry (e.carry n) = n := by
  rcases outside with early | late
  · rw [carry_of_le early]
    exact ⟨.inl early, carry_of_le (e := e.reversed) early⟩
  · have later : e.front.utf8ByteSize + e.new.utf8ByteSize ≤ e.carry n := by
      rw [carry_of_ge late]
      omega
    refine ⟨.inr later, (carry_of_ge (e := e.reversed) later).trans ?_⟩
    rw [carry_of_ge late]
    dsimp only [reversed]
    omega

theorem reversed_carried (start : e.Outside span.start) (stop : e.Outside span.stop) :
    e.reversed.carried (e.carried span) = span := by
  rw [carried, carried, (reversed_carry start).2, (reversed_carry stop).2]

theorem outside_oldSpan : e.Outside e.oldSpan.start ∧ e.Outside e.oldSpan.stop :=
  ⟨.inl (Nat.le_refl _), .inr (Nat.le_refl _)⟩

theorem carried_oldSpan : e.carried e.oldSpan = e.newSpan := by
  rw [carried, oldSpan, newSpan, carry_of_le (Nat.le_refl _), carry_of_ge (Nat.le_refl _)]
  congr 1
  omega

/-! Texts of spans -/

theorem text?_of_within {pre post : String} (within : e.Within pre post span) :
    span.text? e.before = some (pre ++ e.old ++ post) := by
  obtain ⟨front, back, first, last, rfl⟩ := within
  refine Span.text?_eq_some_iff.mpr ⟨front, back, ?_, rfl, rfl⟩
  simp only [before, first, last, String.append_assoc]

theorem reversed_within {pre post : String} (within : e.Within pre post span) :
    e.reversed.Within pre post (e.carried span) := by
  obtain ⟨front, back, first, last, rfl⟩ := within
  have size : e.front.utf8ByteSize = front.utf8ByteSize + pre.utf8ByteSize := by
    rw [first, String.utf8ByteSize_append]
  refine ⟨front, back, first, last, ?_⟩
  simp only [carried, String.utf8ByteSize_append]
  rw [carry_of_le (by omega), carry_of_ge (by omega)]
  dsimp only [reversed]
  congr 1
  omega

/-- A span with a text contains the place of the edit, or has the same text afterwards. -/
theorem within_or_text? {part : String} (start : e.Outside span.start)
    (stop : e.Outside span.stop) (found : span.text? e.before = some part) :
    (∃ pre post, e.Within pre post span) ∨ (e.carried span).text? e.after = some part := by
  obtain ⟨front, back, split, first, last⟩ := Span.text?_eq_some_iff.mp found
  have shorter : span.start ≤ span.stop := by omega
  rw [before] at split
  rcases stop with early | late
  · -- the span ends in front of the edit
    have inFront : e.front ++ (e.old ++ e.back) = front ++ part ++ back := by
      rwa [← String.append_assoc]
    obtain ⟨more, kept, _⟩ := exists_append_of_size_le inFront.symm
      (by rw [String.utf8ByteSize_append]; omega)
    refine .inr (Span.text?_eq_some_iff.mpr ⟨front, more ++ e.new ++ e.back, ?_, ?_, ?_⟩)
    · simp only [after, kept, String.append_assoc]
    · exact (carry_of_le (Nat.le_trans shorter early)).trans first
    · exact (carry_of_le early).trans last
  · rcases start with early | late
    · -- the span contains the edit
      obtain ⟨post, whole, behind⟩ := exists_append_of_size_le split
        (by simp only [String.utf8ByteSize_append]; omega)
      have inFront : e.front ++ (e.old ++ post) = front ++ part := by
        rw [whole, String.append_assoc]
      obtain ⟨pre, kept, inside⟩ := exists_append_of_size_le inFront.symm (first ▸ early)
      refine .inl ⟨pre, post, front, back, kept, behind, ?_⟩
      rw [String.append_assoc, ← inside, ← last, ← first]
    · -- the span begins behind the edit
      have joined : e.front ++ e.old ++ e.back = front ++ (part ++ back) := by
        rw [split, String.append_assoc]
      obtain ⟨more, whole, behind⟩ := exists_append_of_size_le joined
        (by rw [String.utf8ByteSize_append]; omega)
      have size : front.utf8ByteSize =
          e.front.utf8ByteSize + e.old.utf8ByteSize + more.utf8ByteSize := by
        simp only [whole, String.utf8ByteSize_append]
      refine .inr (Span.text?_eq_some_iff.mpr ⟨e.front ++ e.new ++ more, back, ?_, ?_, ?_⟩)
      · simp only [after, behind, String.append_assoc]
      · refine (carry_of_ge late).trans ?_
        simp only [String.utf8ByteSize_append]
        omega
      · refine (carry_of_ge (Nat.le_trans late shorter)).trans ?_
        simp only [String.utf8ByteSize_append]
        omega

theorem text?_carried_of_within {pre post : String} (within : e.Within pre post span) :
    (e.carried span).text? e.after = some (pre ++ e.new ++ post) :=
  text?_of_within (e := e.reversed) (reversed_within within)

theorem map_text?_carried {α : Type} (f : String → α) (start : e.Outside span.start)
    (stop : e.Outside span.stop) :
    (span.text? e.before).map f = ((e.carried span).text? e.after).map f ↔
      ∀ pre post, e.Within pre post span → f (pre ++ e.old ++ post) = f (pre ++ e.new ++ post) := by
  constructor
  · intro same pre post within
    rw [text?_of_within within, text?_carried_of_within within] at same
    exact Option.some.inj same
  · intro same
    by_cases contains : ∃ pre post, e.Within pre post span
    · obtain ⟨pre, post, within⟩ := contains
      rw [text?_of_within within, text?_carried_of_within within]
      exact congrArg some (same pre post within)
    · refine congrArg (Option.map f) (Option.ext fun part => ⟨fun found => ?_, fun found => ?_⟩)
      · exact (within_or_text? start stop found).resolve_left contains
      · -- what is found afterwards was there before: the edit is taken back
        have back := within_or_text? (e := e.reversed) (reversed_carry start).1
          (reversed_carry stop).1 found
        rw [reversed_carried start stop] at back
        refine back.resolve_left fun ⟨pre, post, within⟩ => contains ⟨pre, post, ?_⟩
        have again := reversed_within within
        rwa [reversed_carried start stop] at again

end Edit

end CostWatch

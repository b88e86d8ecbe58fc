import CostWatch.Proofs.Change.Normal

/-!
Gaps between tokens and the normal form.

Between tokens the automaton keeps nothing of a gap but that there is one. That there is one matters
where two words would be joined without it, and nowhere else, so a gap that joins no words may as
well be left out.
-/

set_option autoImplicit false

namespace CostWatch.Normal

open Java

/-- White space and closed comments, one after the other. A block comment is closed by the first
star and slash after its beginning. -/
inductive IsGap : List Char → Prop where
  | nil : IsGap []
  | space {c : Char} {cs : List Char} : Text.isWhiteSpace c = true → IsGap cs → IsGap (c :: cs)
  | lineComment {content cs : List Char} : '\n' ∉ content → IsGap cs →
      IsGap ('/' :: '/' :: content ++ '\n' :: cs)
  | blockComment {content cs : List Char} : ¬ ['*', '/'] <:+: content ++ ['*'] → IsGap cs →
      IsGap ('/' :: '*' :: content ++ '*' :: '/' :: cs)

/-- Whether the automaton is between tokens. After two double quotes it is, if no third one
follows. -/
def Place.isBetween : Place → Bool
  | .code | .twoQuotes => true
  | _ => false

/-! What the automaton does over a gap -/

theorem closesComment_of_first {content : List Char} {star : Bool}
    (first : ¬ ['*', '/'] <:+: (if star then ['*'] else []) ++ content ++ ['*']) :
    closesComment star (content ++ ['*', '/']) = true := by
  induction content generalizing star with
  | nil => cases star <;> rfl
  | cons c rest ih =>
    have later : ¬ ['*', '/'] <:+: (if (c == '*') = true then ['*'] else []) ++ rest ++ ['*'] := by
      refine fun found => first (found.trans (List.IsSuffix.isInfix ?_))
      by_cases isStar : c = '*'
      · exact ⟨if star then ['*'] else [], by simp [isStar]⟩
      · exact ⟨(if star then ['*'] else []) ++ [c], by simp [isStar]⟩
    have stays : ¬ ((star && c == '/') = true) := by
      intro closes
      simp only [Bool.and_eq_true, beq_iff_eq] at closes
      obtain ⟨rfl, rfl⟩ := closes
      exact first ⟨[], rest ++ ['*'], by simp⟩
    rw [List.cons_append, closesComment, if_neg stays]
    exact ih later

section
variable {gap : Bool} {w : List Char}

theorem foldl_gap {cs : List Char} (isGap : IsGap cs) :
    cs.foldl State.step ⟨.code, gap, w⟩ = ⟨.code, gap || !cs.isEmpty, w⟩ := by
  induction isGap generalizing gap with
  | nil => simp
  | space space _ ih =>
    rw [List.foldl_cons, step_space space, ih]
    simp
  | @lineComment content cs inLine _ ih =>
    have opened : ['/', '/'].foldl State.step ⟨.code, gap, w⟩ = ⟨.lineComment, gap, w⟩ := rfl
    have closed : State.step ⟨.lineComment, gap, w⟩ '\n' = ⟨.code, true, w⟩ := rfl
    have split : '/' :: '/' :: content ++ '\n' :: cs = ['/', '/'] ++ (content ++ '\n' :: cs) := rfl
    rw [split, List.foldl_append, opened, List.foldl_append, foldl_lineComment inLine,
      List.foldl_cons, closed, ih]
    simp
  | @blockComment content cs first _ ih =>
    have opened : ['/', '*'].foldl State.step ⟨.code, gap, w⟩ = ⟨.blockComment false, gap, w⟩ := rfl
    have split : '/' :: '*' :: content ++ '*' :: '/' :: cs =
        ['/', '*'] ++ (content ++ ['*', '/'] ++ cs) := by simp
    rw [split, List.foldl_append, opened, List.foldl_append,
      foldl_blockComment (closesComment_of_first (by simpa using first)), ih]
    simp

theorem IsGap.head_ne_quote {c : Char} {cs : List Char} (isGap : IsGap (c :: cs)) : c ≠ '"' := by
  cases isGap with
  | space space _ =>
    rintro rfl
    revert space
    decide
  | lineComment _ _ => decide
  | blockComment _ _ => decide

theorem foldl_gap_of_between {s : State} {cs : List Char} (between : s.place.isBetween = true)
    (isGap : IsGap cs) (some : cs ≠ []) : cs.foldl State.step s = ⟨.code, true, s.written⟩ := by
  obtain ⟨place, gap, w⟩ := s
  cases cs with
  | nil => exact absurd rfl some
  | cons c rest =>
    have code : (c :: rest).foldl State.step ⟨.code, gap, w⟩ = ⟨.code, true, w⟩ := by
      rw [foldl_gap isGap]
      simp
    cases place with
    | code => exact code
    | twoQuotes => rwa [List.foldl_cons, step_twoQuotes isGap.head_ne_quote]
    | _ => cases between

/-! Where a gap matters -/

theorem written_lineComment_gap (rest : List Char) :
    written ⟨.lineComment, gap, w⟩ rest = written ⟨.lineComment, true, w⟩ rest := by
  induction rest with
  | nil => rfl
  | cons c rest ih =>
    have step (gap : Bool) : State.step ⟨.lineComment, gap, w⟩ c =
        if c = '\n' then ⟨.code, true, w⟩ else ⟨.lineComment, gap, w⟩ := rfl
    rw [written_cons, written_cons, step, step]
    split
    · rfl
    · exact ih

theorem written_blockComment_gap (star : Bool) (rest : List Char) :
    written ⟨.blockComment star, gap, w⟩ rest = written ⟨.blockComment star, true, w⟩ rest := by
  induction rest generalizing star with
  | nil => rfl
  | cons c rest ih =>
    have step (gap : Bool) : State.step ⟨.blockComment star, gap, w⟩ c =
        if star && c == '/' then ⟨.code, true, w⟩ else ⟨.blockComment (c == '*'), gap, w⟩ := rfl
    rw [written_cons, written_cons, step, step]
    split
    · rfl
    · exact ih (c == '*')

theorem written_slash_gap (rest : List Char) :
    written ⟨.slash, gap, w⟩ rest = written ⟨.slash, true, w⟩ rest := by
  have put (gap : Bool) (next : Place) :
      State.put ⟨.slash, gap, w⟩ '/' next = ⟨next, false, '/' :: w⟩ := by
    rw [put_eq, spaced_of_not_isWord (by decide)]
    rfl
  cases rest with
  | nil => exact congrArg State.written ((put gap .code).trans (put true .code).symm)
  | cons c rest =>
    rw [written_cons, written_cons]
    simp only [State.step, put]
    split
    · exact written_lineComment_gap rest
    · split
      · exact written_blockComment_gap false rest
      · rfl

theorem written_code_gap {rest : List Char}
    (apart : ¬ (w.head?.any isWord = true ∧ rest.head?.any isWord = true)) :
    written ⟨.code, gap, w⟩ rest = written ⟨.code, true, w⟩ rest := by
  cases rest with
  | nil => rfl
  | cons c rest =>
    have put (next : Place) :
        State.put ⟨.code, gap, w⟩ c next = State.put ⟨.code, true, w⟩ c next := by
      have noBlank : (isWord c && w.head?.any isWord) = false := by
        rw [Bool.eq_false_iff]
        simpa using fun word before => apart ⟨before, word⟩
      rw [put_eq, put_eq, spaced, spaced]
      simp [Bool.and_assoc, noBlank]
    rw [written_cons, written_cons]
    simp only [State.step, State.code, put]
    split
    · exact written_slash_gap rest
    · split <;> rfl

end

/-! The last character of what has been read -/

/-- If the automaton is between tokens after a character, that was the last one written, unless it
belonged to a gap; and if it is after two double quotes, that was one of them. -/
def Ends (c : Char) (s : State) : Prop :=
  s.place.isBetween = true →
    (s.gap = true ∨ s.written.head? = some c) ∧ (s.place = .twoQuotes → c = '"')

theorem ends_elsewhere {s : State} {c : Char} (elsewhere : s.place.isBetween = false) :
    Ends c s :=
  fun between => absurd between (Bool.eq_false_iff.mp elsewhere)

theorem ends_inCode {s : State} {c : Char} (inCode : s.place = .code)
    (ended : s.gap = true ∨ s.written.head? = some c) : Ends c s := by
  refine fun _ => ⟨ended, fun two => ?_⟩
  rw [inCode] at two
  cases two

theorem ends_code (s : State) (c : Char) : Ends c (s.code c) := by
  unfold State.code
  split
  · exact ends_elsewhere rfl
  · split
    · exact ends_inCode rfl (.inl rfl)
    · split
      · exact ends_elsewhere rfl
      · split
        · exact ends_elsewhere rfl
        · exact ends_inCode rfl (.inr rfl)

theorem ends_literal (s : State) (quote : Char) (escaped : Bool) (c : Char) :
    Ends c (s.literal quote escaped c) := by
  unfold State.literal
  split
  · exact ends_elsewhere rfl
  · split
    · exact ends_elsewhere rfl
    · split
      · exact ends_inCode rfl (.inr rfl)
      · exact ends_elsewhere rfl

theorem ends_step (s : State) (c : Char) : Ends c (s.step c) := by
  obtain ⟨place, gap, w⟩ := s
  cases place with
  | code => exact ends_code _ c
  | slash =>
    simp only [State.step]
    split
    · exact ends_elsewhere rfl
    · split
      · exact ends_elsewhere rfl
      · exact ends_code _ c
  | lineComment =>
    simp only [State.step]
    split
    · exact ends_inCode rfl (.inl rfl)
    · exact ends_elsewhere rfl
  | blockComment star =>
    simp only [State.step]
    split
    · exact ends_inCode rfl (.inl rfl)
    · exact ends_elsewhere rfl
  | oneQuote =>
    simp only [State.step]
    split
    · next quote => exact fun _ => ⟨.inr rfl, fun _ => quote⟩
    · exact ends_literal _ _ _ c
  | twoQuotes =>
    simp only [State.step]
    split
    · exact ends_elsewhere rfl
    · exact ends_code _ c
  | literal quote escaped => exact ends_literal _ _ _ c
  | textBlock quotes =>
    simp only [State.step]
    split
    · split
      · exact ends_inCode rfl (.inr rfl)
      · exact ends_elsewhere rfl
    · exact ends_elsewhere rfl

theorem ends_scan {p : List Char} (between : (scan p).place.isBetween = true) :
    ((scan p).gap = true ∨ (scan p).written.head? = p.getLast?) ∧
      ((scan p).place = .twoQuotes → p.getLast? = some '"') := by
  rcases List.eq_nil_or_concat p with rfl | ⟨front, c, rfl⟩
  · exact ⟨.inr rfl, nofun⟩
  · have last : scan (front ++ [c]) = (scan front).step c := List.foldl_concat ..
    rw [List.concat_eq_append, last] at between
    rw [List.concat_eq_append, last, List.getLast?_concat]
    have ⟨ended, two⟩ := ends_step (scan front) c between
    exact ⟨ended, fun place => congrArg some (two place)⟩

/-! Texts with a gap in them -/

theorem written_of_between {s : State} {last : Option Char} {q : List Char}
    (between : s.place.isBetween = true) (ended : s.gap = true ∨ s.written.head? = last)
    (two : s.place = .twoQuotes → last = some '"')
    (apart : ∀ c d, last = some c → q.head? = some d →
      ¬ (isWord c = true ∧ isWord d = true) ∧ ¬ (c = '"' ∧ d = '"')) :
    written s q = written ⟨.code, true, s.written⟩ q := by
  obtain ⟨place, gap, w⟩ := s
  have code : written ⟨.code, gap, w⟩ q = written ⟨.code, true, w⟩ q := by
    rcases ended with rfl | rfl
    · rfl
    · refine written_code_gap fun ⟨before, after⟩ => ?_
      obtain ⟨c, isLast, word⟩ := (Option.any_eq_true _ _).mp before
      obtain ⟨d, isFirst, word'⟩ := (Option.any_eq_true _ _).mp after
      exact (apart c d isLast isFirst).1 ⟨word, word'⟩
  cases place with
  | code => exact code
  | twoQuotes =>
    have noThird : q.head? ≠ some '"' := fun third =>
      (apart '"' '"' (two rfl) third).2 ⟨rfl, rfl⟩
    exact (written_twoQuotes noThird).trans code
  | _ => cases between

theorem written_gap {p cs q : List Char} (between : (scan p).place.isBetween = true)
    (isGap : IsGap cs) (some : cs ≠ []) :
    written State.start (p ++ cs ++ q) = written ⟨.code, true, (scan p).written⟩ q := by
  rw [List.append_assoc, written_append, written_append]
  exact congrArg (written · q) (foldl_gap_of_between between isGap some)

/-- Between tokens it does not matter which gap stands there; nor does it matter that one stands
there, unless two words or two literals in double quotes meet without it. -/
theorem gaps_ignored {p gap other q : String} (between : (scan p.toList).place.isBetween = true)
    (isGap : IsGap gap.toList) (some : gap ≠ "") (isGap' : IsGap other.toList)
    (some' : other ≠ "") :
    normalize (p ++ gap ++ q) = normalize (p ++ other ++ q) ∧
      ((∀ c d, p.toList.getLast? = Option.some c → q.toList.head? = Option.some d →
          ¬ (isWord c = true ∧ isWord d = true) ∧ ¬ (c = '"' ∧ d = '"')) →
        normalize (p ++ gap ++ q) = normalize (p ++ q)) := by
  have whole {cs : String} (isGap : IsGap cs.toList) (some : cs ≠ "") :
      normalize (p ++ cs ++ q) = String.ofList
        (written ⟨.code, true, (scan p.toList).written⟩ q.toList).reverse := by
    rw [normalize, normalizeList_eq, String.toList_append, String.toList_append,
      written_gap between isGap (by simpa using some)]
  refine ⟨(whole isGap some).trans (whole isGap' some').symm, fun apart => ?_⟩
  obtain ⟨ended, two⟩ := ends_scan between
  rw [whole isGap some, ← written_of_between between ended two apart, normalize, normalizeList_eq,
    String.toList_append, written_append]
  rfl

theorem gaps_ignored_comments :
    (scan "a +".toList).place.isBetween = true ∧ IsGap "/*/ \"** */".toList ∧
      IsGap " // \"\n".toList ∧
      normalize ("a +" ++ "/*/ \"** */" ++ "b") = normalize ("a +" ++ " // \"\n" ++ "b") ∧
      normalize ("a +" ++ "/*/ \"** */" ++ "b") = normalize ("a +" ++ "b") := by
  have between : (scan "a +".toList).place.isBetween = true := by decide
  have block : IsGap "/*/ \"** */".toList :=
    @IsGap.blockComment "/ \"** ".toList [] (by decide) .nil
  have line : IsGap " // \"\n".toList :=
    .space (by decide) (@IsGap.lineComment " \"".toList [] (by decide) .nil)
  have ignored := gaps_ignored (q := "b") between block (by decide) line (by decide)
  refine ⟨between, block, line, ignored.1, ignored.2 fun c d last first => ?_⟩
  cases last
  cases first
  decide

end CostWatch.Normal

import CostWatch.Change.Normal
import CostWatch.Proofs.Java.Lexing

/-!
The normal form of a text.

A text is split into code, literals, white space and comments, of which a text that reads as Java is
a special case. The automaton is in the code after each segment of the text. It has written the code
and the literals one after the other then, with a blank between two of them where they stand apart
and would make one word. Text blocks are the exception: one with an escaped quotation mark may look
closed before it is.
-/

set_option autoImplicit false

namespace CostWatch

open Java

def bodyOf (segments : List Segment) : String :=
  String.ofList (textOf segments)

namespace Normal

def written (s : State) (cs : List Char) : List Char :=
  (cs.foldl State.step s).finish.written

theorem written_append (s : State) (cs ds : List Char) :
    written s (cs ++ ds) = written (cs.foldl State.step s) ds := by
  rw [written, written, List.foldl_append]

theorem written_cons (s : State) (c : Char) (cs : List Char) :
    written s (c :: cs) = written (s.step c) cs :=
  rfl

theorem normalizeList_eq (body : List Char) :
    normalizeList body = (written State.start body).reverse :=
  rfl

/-! White space and comments -/

section
variable {gap : Bool} {w : List Char}

theorem step_space {c : Char} (space : Text.isWhiteSpace c = true) :
    State.step ⟨.code, gap, w⟩ c = ⟨.code, true, w⟩ := by
  have noSlash : c ≠ '/' := fun same => by subst same; revert space; decide
  simp only [State.step, State.code, noSlash, if_false, space, if_true, State.leaveOut]

theorem foldl_space {cs : List Char} (some : cs ≠ [])
    (space : ∀ c ∈ cs, Text.isWhiteSpace c = true) :
    cs.foldl State.step ⟨.code, gap, w⟩ = ⟨.code, true, w⟩ := by
  induction cs generalizing gap with
  | nil => exact absurd rfl some
  | cons c rest ih =>
    have ⟨first, others⟩ := List.forall_mem_cons.mp space
    rw [List.foldl_cons, step_space first]
    cases rest with
    | nil => rfl
    | cons d rest => exact ih (List.cons_ne_nil d rest) others

theorem foldl_lineComment {content : List Char} (inLine : '\n' ∉ content) :
    content.foldl State.step ⟨.lineComment, gap, w⟩ = ⟨.lineComment, gap, w⟩ := by
  induction content with
  | nil => rfl
  | cons c rest ih =>
    rw [List.mem_cons, not_or] at inLine
    have stays : State.step ⟨.lineComment, gap, w⟩ c = ⟨.lineComment, gap, w⟩ :=
      if_neg (Ne.symm inLine.1)
    rw [List.foldl_cons, stays]
    exact ih inLine.2

/-- At the end of its line, a comment counts as white space. -/
theorem written_lineComment {rest : List Char} (ends : rest = [] ∨ rest.head? = some '\n') :
    written ⟨.lineComment, gap, w⟩ rest = written ⟨.code, true, w⟩ rest := by
  cases rest with
  | nil => rfl
  | cons c rest =>
    have line : c = '\n' := Option.some.inj (ends.resolve_left (List.cons_ne_nil c rest))
    subst line
    rw [written_cons, written_cons, step_space (by decide)]
    rfl

theorem foldl_blockComment {star : Bool} {content : List Char}
    (closed : closesComment star content = true) :
    content.foldl State.step ⟨.blockComment star, gap, w⟩ = ⟨.code, true, w⟩ := by
  induction content generalizing star with
  | nil => cases closed
  | cons c rest ih =>
    have step : State.step ⟨.blockComment star, gap, w⟩ c =
        if star && c == '/' then ⟨.code, true, w⟩ else ⟨.blockComment (c == '*'), gap, w⟩ := rfl
    rw [closesComment] at closed
    rw [List.foldl_cons, step]
    split at closed
    · next ends =>
      rw [if_pos ends, List.isEmpty_iff.mp closed]
      rfl
    · next goesOn =>
      rw [if_neg goesOn]
      exact ih closed

end

/-! Tokens -/

def spaced (gap : Bool) (w t : List Char) : List Char :=
  t.reverse ++ if gap && t.head?.any isWord && w.head?.any isWord then ' ' :: w else w

/-- A text has three quotation marks in a row at its end, and none before, with `quotes` of them in
front of it. -/
def endsInQuotes (quotes : Nat) : List Char → Bool
  | [] => false
  | c :: rest =>
    if c = '"' then if quotes = 2 then rest.isEmpty else endsInQuotes (quotes + 1) rest
    else endsInQuotes 0 rest

/-- A token is not a text block that has three quotation marks in a row inside. -/
def isClear : List Char → Bool
  | '"' :: '"' :: '"' :: cs => endsInQuotes 0 cs
  | _ => true

/-- A text has neither white space nor quotes in it, and no comment begins in it when it goes on
with `rest`. -/
def IsCode (rest : List Char) : List Char → Prop
  | [] => True
  | c :: t =>
    (isPlain c = true ∨
      c = '/' ∧ (t ++ rest).head? ≠ some '/' ∧ (t ++ rest).head? ≠ some '*') ∧ IsCode rest t

def IsCode.decide (rest : List Char) : (t : List Char) → Decidable (IsCode rest t)
  | [] => .isTrue trivial
  | c :: t =>
    @instDecidableAnd (isPlain c = true ∨
      c = '/' ∧ (t ++ rest).head? ≠ some '/' ∧ (t ++ rest).head? ≠ some '*') (IsCode rest t) _
      (IsCode.decide rest t)

instance (rest t : List Char) : Decidable (IsCode rest t) := IsCode.decide rest t

section
variable {gap : Bool} {w : List Char}

theorem endsInWord_eq (w : List Char) : endsInWord w = w.head?.any isWord := by
  cases w <;> rfl

theorem spaced_of_not_isWord {c : Char} (noWord : isWord c = false) (t : List Char) :
    spaced gap w (c :: t) = (c :: t).reverse ++ w := by
  simp [spaced, noWord]

theorem put_eq (place next : Place) (c : Char) :
    State.put ⟨place, gap, w⟩ c next = ⟨next, false, spaced gap w [c]⟩ := by
  rw [State.put, endsInWord_eq]
  rfl

theorem step_plain {c : Char} (plain : isPlain c = true) :
    State.step ⟨.code, gap, w⟩ c = ⟨.code, false, spaced gap w [c]⟩ := by
  simp only [isPlain, Bool.and_eq_true, Bool.not_eq_true', bne_iff_ne, ne_eq] at plain
  obtain ⟨⟨⟨noSpace, noSlash⟩, noQuote⟩, noApostrophe⟩ := plain
  simp only [State.step, State.code, noSlash, noSpace, noQuote, noApostrophe, if_false, put_eq,
    Bool.false_eq_true]

theorem written_slash {rest : List Char}
    (noComment : rest.head? ≠ some '/' ∧ rest.head? ≠ some '*') :
    written ⟨.code, gap, w⟩ ('/' :: rest) = written ⟨.code, false, '/' :: w⟩ rest := by
  have put : State.put ⟨.slash, gap, w⟩ '/' .code = ⟨.code, false, '/' :: w⟩ := by
    rw [put_eq, spaced_of_not_isWord (by decide)]
    rfl
  cases rest with
  | nil => exact congrArg State.written put
  | cons c rest =>
    have noSlash : c ≠ '/' := fun same => noComment.1 (congrArg Option.some same)
    have noStar : c ≠ '*' := fun same => noComment.2 (congrArg Option.some same)
    have step : State.step ⟨.slash, gap, w⟩ c = State.step ⟨.code, false, '/' :: w⟩ c := by
      simp only [State.step, noSlash, noStar, if_false, put]
    rw [written_cons, written_cons, written_cons, ← step]
    rfl

theorem foldl_literal {quote : Char} {escaped : Bool} {cs : List Char}
    (closed : closes quote escaped cs = true) :
    cs.foldl State.step ⟨.literal quote escaped, gap, w⟩ = ⟨.code, gap, cs.reverse ++ w⟩ := by
  induction cs generalizing escaped w with
  | nil => cases closed
  | cons c rest ih =>
    have go {e : Bool} (closed : closes quote e rest = true) :
        rest.foldl State.step ⟨.literal quote e, gap, c :: w⟩ =
          ⟨.code, gap, (c :: rest).reverse ++ w⟩ := by
      rw [ih closed]
      simp
    have step : State.step ⟨.literal quote escaped, gap, w⟩ c =
        if escaped then ⟨.literal quote false, gap, c :: w⟩
        else if c = '\\' then ⟨.literal quote true, gap, c :: w⟩
        else if c = quote then ⟨.code, gap, c :: w⟩
        else ⟨.literal quote false, gap, c :: w⟩ := rfl
    rw [closes] at closed
    rw [List.foldl_cons, step]
    split at closed
    · cases closed
    · split at closed
      · next isEscaped => rw [if_pos isEscaped]; exact go closed
      · next free =>
        rw [if_neg free]
        split at closed
        · next backslash => rw [if_pos backslash]; exact go closed
        · next noBackslash =>
          rw [if_neg noBackslash]
          split at closed
          · next isQuote =>
            rw [if_pos isQuote, List.isEmpty_iff.mp closed]
            rfl
          · next noQuote => rw [if_neg noQuote]; exact go closed

theorem foldl_textBlock {quotes : Nat} {cs : List Char} (closed : endsInQuotes quotes cs = true) :
    cs.foldl State.step ⟨.textBlock quotes, gap, w⟩ = ⟨.code, gap, cs.reverse ++ w⟩ := by
  induction cs generalizing quotes w with
  | nil => cases closed
  | cons c rest ih =>
    have go {n : Nat} (closed : endsInQuotes n rest = true) :
        rest.foldl State.step ⟨.textBlock n, gap, c :: w⟩ =
          ⟨.code, gap, (c :: rest).reverse ++ w⟩ := by
      rw [ih closed]
      simp
    have step : State.step ⟨.textBlock quotes, gap, w⟩ c =
        if c = '"' then
          if quotes = 2 then ⟨.code, gap, c :: w⟩ else ⟨.textBlock (quotes + 1), gap, c :: w⟩
        else ⟨.textBlock 0, gap, c :: w⟩ := rfl
    rw [endsInQuotes] at closed
    rw [List.foldl_cons, step]
    split at closed
    · next isQuote =>
      rw [if_pos isQuote]
      split at closed
      · next third =>
        rw [if_pos third, List.isEmpty_iff.mp closed]
        rfl
      · next before => rw [if_neg before]; exact go closed
    · next noQuote => rw [if_neg noQuote]; exact go closed

theorem step_twoQuotes {c : Char} (noThird : c ≠ '"') :
    State.step ⟨.twoQuotes, gap, w⟩ c = State.step ⟨.code, gap, w⟩ c := by
  simp only [State.step, noThird, if_false, State.goTo]

theorem written_twoQuotes {rest : List Char} (noThird : rest.head? ≠ some '"') :
    written ⟨.twoQuotes, gap, w⟩ rest = written ⟨.code, gap, w⟩ rest := by
  cases rest with
  | nil => rfl
  | cons c rest =>
    have noQuote : c ≠ '"' := fun same => noThird (congrArg Option.some same)
    rw [written_cons, step_twoQuotes noQuote]
    rfl

theorem step_quote : State.step ⟨.code, gap, w⟩ '"' = ⟨.oneQuote, false, '"' :: w⟩ := by
  have step : State.step ⟨.code, gap, w⟩ '"' = State.put ⟨.code, gap, w⟩ '"' .oneQuote := rfl
  rw [step, put_eq, spaced_of_not_isWord (by decide)]
  rfl

theorem foldl_string {c : Char} {cs : List Char} (noQuote : c ≠ '"')
    (closed : closes '"' false (c :: cs) = true) :
    ('"' :: c :: cs).foldl State.step ⟨.code, gap, w⟩ =
      ⟨.code, false, spaced gap w ('"' :: c :: cs)⟩ := by
  have same : State.step ⟨.oneQuote, false, '"' :: w⟩ c =
      State.step ⟨.literal '"' false, false, '"' :: w⟩ c := by
    simp only [State.step, noQuote, if_false, State.literal]
    rfl
  have rest : (c :: cs).foldl State.step ⟨.literal '"' false, false, '"' :: w⟩ =
      ⟨.code, false, (c :: cs).reverse ++ '"' :: w⟩ := foldl_literal closed
  rw [List.foldl_cons] at rest
  rw [List.foldl_cons, step_quote, List.foldl_cons, same, rest,
    spaced_of_not_isWord (by decide)]
  simp

theorem foldl_character {cs : List Char} (closed : closes '\'' false cs = true) :
    ('\'' :: cs).foldl State.step ⟨.code, gap, w⟩ = ⟨.code, false, spaced gap w ('\'' :: cs)⟩ := by
  have step : State.step ⟨.code, gap, w⟩ '\'' =
      State.put ⟨.code, gap, w⟩ '\'' (.literal '\'' false) := rfl
  rw [List.foldl_cons, step, put_eq, foldl_literal closed, spaced_of_not_isWord (by decide),
    spaced_of_not_isWord (by decide)]
  simp

theorem foldl_block {cs : List Char} (closed : endsInQuotes 0 cs = true) :
    ('"' :: '"' :: '"' :: cs).foldl State.step ⟨.code, gap, w⟩ =
      ⟨.code, false, spaced gap w ('"' :: '"' :: '"' :: cs)⟩ := by
  have opened : ['"', '"', '"'].foldl State.step ⟨.code, gap, w⟩ =
      ⟨.textBlock 0, false, ['"', '"', '"'] ++ w⟩ := by
    rw [List.foldl_cons, step_quote]
    rfl
  have split : '"' :: '"' :: '"' :: cs = ['"', '"', '"'] ++ cs := rfl
  rw [split, List.foldl_append, opened, foldl_textBlock closed]
  exact congrArg (State.mk .code false) (by simp [spaced, show isWord '"' = false by decide])

theorem written_codeInside {t rest : List Char} (code : IsCode rest t) :
    written ⟨.code, false, w⟩ (t ++ rest) = written ⟨.code, false, t.reverse ++ w⟩ rest := by
  induction t generalizing w with
  | nil => rfl
  | cons c t ih =>
    have step : written ⟨.code, false, w⟩ (c :: (t ++ rest)) =
        written ⟨.code, false, c :: w⟩ (t ++ rest) := by
      rcases code.1 with plain | ⟨rfl, noComment⟩
      · rw [written_cons, step_plain plain]
        rfl
      · exact written_slash noComment
    rw [List.cons_append, step, ih code.2]
    simp

theorem written_code {t rest : List Char} (some : t ≠ []) (code : IsCode rest t) :
    written ⟨.code, gap, w⟩ (t ++ rest) = written ⟨.code, false, spaced gap w t⟩ rest := by
  cases t with
  | nil => exact absurd rfl some
  | cons c t =>
    have step : written ⟨.code, gap, w⟩ (c :: (t ++ rest)) =
        written ⟨.code, false, spaced gap w [c]⟩ (t ++ rest) := by
      rcases code.1 with plain | ⟨rfl, noComment⟩
      · rw [written_cons, step_plain plain]
      · rw [written_slash noComment, spaced_of_not_isWord (by decide)]
        rfl
    rw [List.cons_append, step, written_codeInside code.2]
    simp [spaced]

theorem written_quoted {t rest : List Char} (quoted : isQuoted t = true)
    (noBlock : t = ['"', '"'] → rest.head? ≠ some '"') (clear : isClear t = true) :
    written ⟨.code, gap, w⟩ (t ++ rest) = written ⟨.code, false, spaced gap w t⟩ rest := by
  have of_foldl (step : t.foldl State.step ⟨.code, gap, w⟩ = ⟨.code, false, spaced gap w t⟩) :
      written ⟨.code, gap, w⟩ (t ++ rest) = written ⟨.code, false, spaced gap w t⟩ rest := by
    rw [written_append, step]
  unfold isQuoted at quoted
  split at quoted
  · rw [Bool.and_eq_true] at quoted
    exact of_foldl (foldl_character quoted.2)
  · next cs =>
    rw [Bool.or_eq_true] at quoted
    rcases quoted with closed | closed
    · cases cs with
      | nil => cases closed
      | cons c cs =>
        by_cases quote : c = '"'
        · subst quote
          have empty : cs = [] := List.isEmpty_iff.mp closed
          subst empty
          have opened : ['"', '"'].foldl State.step ⟨.code, gap, w⟩ =
              ⟨.twoQuotes, false, '"' :: '"' :: w⟩ := by
            rw [List.foldl_cons, step_quote]
            rfl
          rw [written_append, opened, written_twoQuotes (noBlock rfl),
            spaced_of_not_isWord (by decide)]
          rfl
        · exact of_foldl (foldl_string quote closed)
    · split at closed
      · exact of_foldl (foldl_block clear)
      · cases closed
  · cases quoted

end

/-! Texts that are split into code, literals, white space and comments -/

/-- A segment of a text that goes on with `rest` after it. A token is either code or a literal. -/
def Fits (rest : List Char) : Segment → Prop
  | .token t =>
    t ≠ [] ∧ IsCode rest t ∨ isQuoted t = true ∧ (t = ['"', '"'] → rest.head? ≠ some '"')
  | .space cs => cs ≠ [] ∧ ∀ c ∈ cs, Text.isWhiteSpace c = true
  | .lineComment content => '\n' ∉ content ∧ (rest = [] ∨ rest.head? = some '\n')
  | .blockComment content => closesComment false content = true

instance (rest : List Char) : (segment : Segment) → Decidable (Fits rest segment)
  | .token t => inferInstanceAs (Decidable (t ≠ [] ∧ IsCode rest t ∨
      isQuoted t = true ∧ (t = ['"', '"'] → rest.head? ≠ some '"')))
  | .space cs =>
    decidable_of_iff (cs ≠ [] ∧ cs.all Text.isWhiteSpace = true) (by rw [List.all_eq_true]; rfl)
  | .lineComment content =>
    inferInstanceAs (Decidable ('\n' ∉ content ∧ (rest = [] ∨ rest.head? = some '\n')))
  | .blockComment content => inferInstanceAs (Decidable (closesComment false content = true))

def Splits : List Segment → Prop
  | [] => True
  | segment :: rest => Fits (textOf rest) segment ∧ Splits rest

def Splits.decide : (segments : List Segment) → Decidable (Splits segments)
  | [] => .isTrue trivial
  | segment :: rest =>
    @instDecidableAnd (Fits (textOf rest) segment) (Splits rest) _ (Splits.decide rest)

instance (segments : List Segment) : Decidable (Splits segments) := Splits.decide segments

theorem isCode_of_plain {t : List Char} (rest : List Char) (plain : ∀ c ∈ t, isPlain c = true) :
    IsCode rest t := by
  induction t with
  | nil => trivial
  | cons c t ih =>
    have ⟨first, others⟩ := List.forall_mem_cons.mp plain
    exact ⟨.inl first, ih others⟩

theorem fits_of_isNext {t rest : List Char} (next : IsNext t rest) : Fits rest (.token t) := by
  have some := next.token.ne_nil
  cases next.token with
  | word matched => exact .inl ⟨some, isCode_of_plain rest (word_within.of_matchesAll matched)⟩
  | number matched =>
    exact .inl ⟨some, isCode_of_plain rest (number_within.of_matchesAll matched)⟩
  | operator listed =>
    refine .inl ⟨some, ?_⟩
    rcases operators_plain t listed with rfl | rfl | ⟨_, plain⟩
    · refine ⟨.inr ⟨rfl, fun slash => ?_, fun star => ?_⟩, trivial⟩
      · exact next.noComment.1 (by cases rest <;> simp_all)
      · exact next.noComment.2 (by cases rest <;> simp_all)
    · exact ⟨.inr ⟨rfl, by simp⟩, isCode_of_plain rest (List.all_eq_true.mp rfl)⟩
    · exact isCode_of_plain rest (List.all_eq_true.mp plain)
  | character notEmpty closed =>
    exact .inr ⟨by simp [isQuoted, notEmpty, closed], next.noBlock⟩
  | string closed => exact .inr ⟨by simp [isQuoted, closed], next.noBlock⟩
  | block closed => exact .inr ⟨by simp [isQuoted, closed], next.noBlock⟩

theorem isWhiteSpace_of_isSpace {c : Char} (space : Lexeme.isSpace c = true) :
    Text.isWhiteSpace c = true := by
  simp only [Lexeme.isSpace, Bool.or_eq_true, beq_iff_eq, Bool.and_eq_true,
    decide_eq_true_eq] at space
  rcases space with rfl | ⟨low, high⟩
  · decide
  · have above : 9 ≤ c.toNat := low
    have below : c.toNat ≤ 13 := high
    simp [Text.isWhiteSpace, above, below]

theorem splits_of_reads {segments : List Segment} (reads : Reads segments) : Splits segments := by
  induction segments with
  | nil => trivial
  | cons segment rest ih =>
    refine ⟨?_, ih reads.2⟩
    cases segment with
    | token t => exact fits_of_isNext reads.1
    | space cs =>
      exact ⟨reads.1.1, fun c member =>
        isWhiteSpace_of_isSpace (List.all_eq_true.mp reads.1.2 c member)⟩
    | lineComment content => exact reads.1
    | blockComment content => exact reads.1

/-! The whole text -/

theorem Fits.ne_nil {t rest : List Char} (fits : Fits rest (.token t)) : t ≠ [] := by
  rcases fits with code | literal
  · exact code.1
  · rintro rfl
    exact absurd literal.1 (by decide)

/-- The tokens of a text, with blanks between words that stand apart. The text goes on after a
character, if there is one, and a gap or none. -/
def layOut (last : Option Char) (gap : Bool) : List Segment → List Char
  | [] => []
  | .token t :: rest =>
    (if gap && t.head?.any isWord && last.any isWord then [' '] else []) ++ t ++
      layOut t.getLast? false rest
  | .space _ :: rest | .lineComment _ :: rest | .blockComment _ :: rest => layOut last true rest

theorem head?_spaced {gap : Bool} {w t : List Char} (some : t ≠ []) :
    (spaced gap w t).head? = t.getLast? := by
  rw [spaced, List.head?_append_of_ne_nil _ (by simpa using some), List.head?_reverse]

theorem written_textOf {segments : List Segment} (splits : Splits segments)
    (clear : ∀ t ∈ tokens segments, isClear t = true) (gap : Bool) (w : List Char) :
    written ⟨.code, gap, w⟩ (textOf segments) = (layOut w.head? gap segments).reverse ++ w := by
  induction segments generalizing gap w with
  | nil => rfl
  | cons segment rest ih =>
    obtain ⟨fits, splits⟩ := splits
    rw [textOf_cons]
    cases segment with
    | token t =>
      have ⟨first, others⟩ := List.forall_mem_cons.mp clear
      have step : written ⟨.code, gap, w⟩ (t ++ textOf rest) =
          written ⟨.code, false, spaced gap w t⟩ (textOf rest) :=
        fits.elim (fun code => written_code code.1 code.2)
          fun literal => written_quoted literal.1 literal.2 first
      rw [Segment.text, step, ih splits others, head?_spaced fits.ne_nil]
      simp only [layOut, spaced, List.reverse_append, List.append_assoc]
      split <;> rfl
    | space cs =>
      rw [Segment.text, written_append, foldl_space fits.1 fits.2]
      exact ih splits clear true w
    | lineComment content =>
      have opened : written ⟨.code, gap, w⟩ ('/' :: '/' :: content ++ textOf rest) =
          written ⟨.lineComment, gap, w⟩ (content ++ textOf rest) := rfl
      rw [Segment.text, opened, written_append, foldl_lineComment fits.1,
        written_lineComment fits.2]
      exact ih splits clear true w
    | blockComment content =>
      have opened : written ⟨.code, gap, w⟩ ('/' :: '*' :: content ++ textOf rest) =
          written ⟨.blockComment false, gap, w⟩ (content ++ textOf rest) := rfl
      rw [Segment.text, opened, written_append, foldl_blockComment fits]
      exact ih splits clear true w

/-- The normal form of a text is its code and its literals, laid out. -/
theorem normalizeList_textOf {segments : List Segment} (splits : Splits segments)
    (clear : ∀ t ∈ tokens segments, isClear t = true) :
    normalizeList (textOf segments) = layOut none false segments := by
  rw [normalizeList_eq, State.start, written_textOf splits clear, List.append_nil,
    List.reverse_reverse]
  rfl

theorem normalize_bodyOf {segments : List Segment} (splits : Splits segments)
    (clear : ∀ t ∈ tokens segments, isClear t = true) :
    normalize (bodyOf segments) = String.ofList (layOut none false segments) := by
  rw [normalize, bodyOf, String.toList_ofList, normalizeList_textOf splits clear]

end Normal

end CostWatch

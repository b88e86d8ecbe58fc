import CostWatch.Proofs.Change.Normal

/-!
Literals in the normal form.

A literal is in the normal form as it stands, and what comes after it has the normal form that it
would have alone. This holds as long as the automaton ends every literal where it ends: a text block
with an escaped quotation mark in front of two others seems to it to end there, and the code after
the text block is then taken for the inside of a literal.
-/

set_option autoImplicit false

namespace CostWatch

open Java

namespace Normal

def literals (segments : List Segment) : List (List Char) :=
  (tokens segments).filter isQuoted

inductive HasInOrder : List (List Char) → List Char → Prop where
  | nil {text : List Char} : HasInOrder [] text
  | cons {before t text : List Char} {ts : List (List Char)} :
      HasInOrder ts text → HasInOrder (t :: ts) (before ++ t ++ text)

theorem HasInOrder.after {ts : List (List Char)} {text : List Char} (before : List Char)
    (inOrder : HasInOrder ts text) : HasInOrder ts (before ++ text) := by
  cases inOrder with
  | nil => exact .nil
  | @cons skipped t text ts rest =>
    rw [← List.append_assoc, ← List.append_assoc]
    exact .cons rest

/-! Where literals begin and end -/

theorem getLast?_of_closes {quote : Char} {escaped : Bool} {cs : List Char}
    (closed : closes quote escaped cs = true) : cs.getLast? = some quote := by
  induction cs generalizing escaped with
  | nil => cases closed
  | cons c rest ih =>
    have go {e : Bool} (closed : closes quote e rest = true) :
        (c :: rest).getLast? = some quote := by
      rw [List.getLast?_cons, ih closed]
      rfl
    rw [closes] at closed
    split at closed
    · cases closed
    · split at closed
      · exact go closed
      · split at closed
        · exact go closed
        · split at closed
          · next isQuote => rw [isQuote, List.isEmpty_iff.mp closed]; rfl
          · exact go closed

theorem getLast?_of_closesBlock {quotes : Nat} {escaped : Bool} {cs : List Char}
    (closed : closesBlock quotes escaped cs = true) : cs.getLast? = some '"' := by
  induction cs generalizing quotes escaped with
  | nil => cases closed
  | cons c rest ih =>
    have go {n : Nat} {e : Bool} (closed : closesBlock n e rest = true) :
        (c :: rest).getLast? = some '"' := by
      rw [List.getLast?_cons, ih closed]
      rfl
    rw [closesBlock] at closed
    split at closed
    · exact go closed
    · split at closed
      · exact go closed
      · split at closed
        · next isQuote =>
          split at closed
          · rw [isQuote, List.isEmpty_iff.mp closed]; rfl
          · exact go closed
        · exact go closed

theorem ends_of_isQuoted {t : List Char} (quoted : isQuoted t = true) :
    t.head?.any isWord = false ∧ t.getLast?.any isWord = false := by
  have noWord : isWord '"' = false ∧ isWord '\'' = false := by decide
  have last {c : Char} {cs : List Char} (some : cs.getLast? = some c) (first : Char) :
      (first :: cs).getLast? = .some c := by
    rw [List.getLast?_cons, some]
    rfl
  unfold isQuoted at quoted
  split at quoted
  · rw [Bool.and_eq_true] at quoted
    rw [last (getLast?_of_closes quoted.2)]
    exact ⟨noWord.2, noWord.2⟩
  · rw [Bool.or_eq_true] at quoted
    rcases quoted with closed | closed
    · rw [last (getLast?_of_closes closed)]
      exact ⟨noWord.1, noWord.1⟩
    · split at closed
      · rw [last (last (last (getLast?_of_closesBlock closed) _) _)]
        exact ⟨noWord.1, noWord.1⟩
      · cases closed
  · cases quoted

theorem isClear_of_isCode {t rest : List Char} (code : IsCode rest t) : isClear t = true := by
  unfold isClear
  split
  · rcases code.1 with plain | ⟨slash, _⟩
    · exact absurd plain (by decide)
    · cases slash
  · rfl

theorem isClear_of_literals {segments : List Segment} (splits : Splits segments)
    (clear : ∀ t ∈ literals segments, isClear t = true) :
    ∀ t ∈ tokens segments, isClear t = true := by
  induction segments with
  | nil => nofun
  | cons segment rest ih =>
    cases segment with
    | token t =>
      intro s member
      rcases List.mem_cons.mp member with rfl | later
      · rcases splits.1 with code | literal
        · exact isClear_of_isCode code.2
        · exact clear s (List.mem_filter.mpr ⟨List.mem_cons_self, literal.1⟩)
      · refine ih splits.2 (fun u literal => clear u ?_) s later
        have ⟨among, quoted⟩ := List.mem_filter.mp literal
        exact List.mem_filter.mpr ⟨List.mem_cons_of_mem t among, quoted⟩
    | space _ => exact ih splits.2 clear
    | lineComment _ => exact ih splits.2 clear
    | blockComment _ => exact ih splits.2 clear

/-! Parts of a text that is split into segments -/

theorem textOf_append (front back : List Segment) :
    textOf (front ++ back) = textOf front ++ textOf back :=
  List.flatMap_append

theorem head?_ne_of_append {cs ds : List Char} {c : Char} (differs : (cs ++ ds).head? ≠ some c) :
    cs.head? ≠ some c := by
  cases cs with
  | nil => nofun
  | cons d cs => exact differs

theorem IsCode.of_append {t rest more : List Char} (code : IsCode (rest ++ more) t) :
    IsCode rest t := by
  induction t with
  | nil => trivial
  | cons c t ih =>
    refine ⟨code.1.imp_right fun ⟨slash, noSlash, noStar⟩ => ⟨slash, ?_, ?_⟩, ih code.2⟩
    · exact head?_ne_of_append (by rwa [List.append_assoc])
    · exact head?_ne_of_append (by rwa [List.append_assoc])

theorem Fits.of_append {segment : Segment} {rest more : List Char}
    (fits : Fits (rest ++ more) segment) : Fits rest segment := by
  cases segment with
  | token t =>
    exact fits.imp (And.imp_right IsCode.of_append)
      (And.imp_right fun noBlock empty => head?_ne_of_append (noBlock empty))
  | space cs => exact fits
  | lineComment content =>
    refine ⟨fits.1, ?_⟩
    cases rest with
    | nil => exact .inl rfl
    | cons c rest => exact .inr (fits.2.resolve_left (List.cons_ne_nil c _))
  | blockComment content => exact fits

theorem Splits.front {front back : List Segment} (splits : Splits (front ++ back)) :
    Splits front := by
  induction front with
  | nil => trivial
  | cons segment front ih =>
    have fits : Fits (textOf (front ++ back)) segment := splits.1
    rw [textOf_append] at fits
    exact ⟨fits.of_append, ih splits.2⟩

theorem Splits.back {front back : List Segment} (splits : Splits (front ++ back)) :
    Splits back := by
  induction front with
  | nil => exact splits
  | cons segment front ih => exact ih splits.2

theorem literals_around {t : List Char} (quoted : isQuoted t = true)
    (front back : List Segment) :
    literals (front ++ .token t :: back) = literals front ++ t :: literals back := by
  have all : tokens (front ++ .token t :: back) = tokens front ++ t :: tokens back := by
    induction front with
    | nil => rfl
    | cons segment front ih =>
      cases segment with
      | token s => exact congrArg (s :: ·) ih
      | space _ => exact ih
      | lineComment _ => exact ih
      | blockComment _ => exact ih
  rw [literals, all, List.filter_append, List.filter_cons_of_pos quoted]
  rfl

/-! Texts with a literal in them -/

theorem layOut_of_noWord {last : Option Char} (noWord : last.any isWord = false) (gap : Bool)
    (segments : List Segment) : layOut last gap segments = layOut none gap segments := by
  induction segments generalizing gap with
  | nil => rfl
  | cons segment rest ih =>
    cases segment with
    | token t => simp [layOut, noWord]
    | space _ => exact ih true
    | lineComment _ => exact ih true
    | blockComment _ => exact ih true

theorem layOut_literal {t : List Char} (quoted : isQuoted t = true) (last : Option Char)
    (gap : Bool) (front back : List Segment) :
    layOut last gap (front ++ .token t :: back) =
      layOut last gap front ++ t ++ layOut none false back := by
  have ⟨begins, ends⟩ := ends_of_isQuoted quoted
  induction front generalizing last gap with
  | nil => simp [layOut, begins, layOut_of_noWord ends]
  | cons segment front ih =>
    cases segment with
    | token s => simp [layOut, ih]
    | space _ => exact ih last true
    | lineComment _ => exact ih last true
    | blockComment _ => exact ih last true

theorem hasInOrder_layOut (last : Option Char) (gap : Bool) (segments : List Segment) :
    HasInOrder (literals segments) (layOut last gap segments) := by
  induction segments generalizing last gap with
  | nil => exact .nil
  | cons segment rest ih =>
    cases segment with
    | token t =>
      have others := ih t.getLast? false
      by_cases quoted : isQuoted t = true
      · have split : literals (.token t :: rest) = t :: literals rest :=
          List.filter_cons_of_pos quoted
        rw [split]
        exact .cons others
      · have split : literals (.token t :: rest) = literals rest :=
          List.filter_cons_of_neg quoted
        rw [split]
        exact others.after _
    | space _ => exact ih last true
    | lineComment _ => exact ih last true
    | blockComment _ => exact ih last true

theorem normalize_literal {front back : List Segment} {t : List Char}
    (splits : Splits (front ++ .token t :: back)) (quoted : isQuoted t = true)
    (clear : ∀ s ∈ literals (front ++ .token t :: back), isClear s = true) :
    normalize (bodyOf (front ++ .token t :: back)) =
      normalize (bodyOf front) ++ String.ofList t ++ normalize (bodyOf back) := by
  have all := isClear_of_literals splits clear
  rw [literals_around quoted] at clear
  have ⟨before, others⟩ := List.forall_mem_append.mp clear
  have ⟨_, after⟩ := List.forall_mem_cons.mp others
  rw [normalize_bodyOf splits all,
    normalize_bodyOf splits.front (isClear_of_literals splits.front before),
    normalize_bodyOf splits.back.2 (isClear_of_literals splits.back.2 after),
    layOut_literal quoted, String.ofList_append, String.ofList_append]

/-! Text blocks -/

/-- The automaton comes back to the code at the end of a text, and not before. -/
def Returns (s : State) (cs : List Char) : Prop :=
  (cs.foldl State.step s).place = .code ∧
    ∀ t, t <+: cs → t ≠ cs → (t.foldl State.step s).place ≠ .code

theorem returns_of_code {s : State} {cs : List Char} (inCode : s.place = .code) :
    Returns s cs ↔ cs = [] := by
  constructor
  · rintro ⟨_, notBefore⟩
    by_contra some
    exact notBefore [] List.nil_prefix (Ne.symm some) inCode
  · rintro rfl
    exact ⟨inCode, fun t start proper => absurd (List.prefix_nil.mp start) proper⟩

theorem returns_cons {s : State} {c : Char} {rest : List Char} (elsewhere : s.place ≠ .code) :
    Returns s (c :: rest) ↔ Returns (s.step c) rest := by
  refine and_congr_right fun _ => ⟨fun notBefore t start proper => ?_,
    fun notBefore t start proper => ?_⟩
  · exact notBefore (c :: t) (List.cons_prefix_cons.mpr ⟨rfl, start⟩)
      (mt (List.cons.inj · |>.2) proper)
  · obtain rfl | ⟨t, rfl, later⟩ := List.prefix_cons_iff.mp start
    · exact elsewhere
    · exact notBefore t later (mt (congrArg _) proper)

theorem returns_textBlock {quotes : Nat} {gap : Bool} {w cs : List Char} :
    Returns ⟨.textBlock quotes, gap, w⟩ cs ↔ endsInQuotes quotes cs = true := by
  induction cs generalizing quotes w with
  | nil =>
    constructor
    · rintro ⟨ended, _⟩
      cases ended
    · nofun
  | cons c rest ih =>
    rw [returns_cons (by simp), endsInQuotes]
    simp only [State.step]
    by_cases isQuote : c = '"'
    · rw [if_pos isQuote, if_pos isQuote]
      by_cases third : quotes = 2
      · rw [if_pos third, if_pos third, returns_of_code rfl, List.isEmpty_iff]
      · rw [if_neg third, if_neg third]
        exact ih
    · rw [if_neg isQuote, if_neg isQuote]
      exact ih

/-- The automaton takes a text for one literal: it is in the code again at its end, and not
before. -/
def TakenWhole : List Char → Prop
  | [] => False
  | c :: cs => Returns (scan [c]) cs

/-- A text block is taken for one literal exactly if no three quotation marks follow each other in
it before its end. -/
theorem takenWhole_iff {cs : List Char} :
    TakenWhole ('"' :: '"' :: '"' :: cs) ↔ isClear ('"' :: '"' :: '"' :: cs) = true := by
  have opened : TakenWhole ('"' :: '"' :: '"' :: cs) ↔
      Returns ⟨.textBlock 0, false, ['"', '"', '"']⟩ cs :=
    (returns_cons (by decide)).trans (returns_cons (by decide))
  exact opened.trans returns_textBlock

end Normal

open CostWatch.Normal

/-- Literals survive: they are in the normal form as they stand and in their order, what follows a
literal has the normal form that it has alone, and another literal in its place makes another normal
form. -/
theorem literals_kept {segments : List Segment} (splits : Splits segments)
    (clear : ∀ t ∈ literals segments, isClear t = true) :
    HasInOrder (literals segments) (normalize (bodyOf segments)).toList ∧
      ∀ front t back, segments = front ++ .token t :: back → isQuoted t = true →
        normalize (bodyOf segments) =
            normalize (bodyOf front) ++ String.ofList t ++ normalize (bodyOf back) ∧
          ∀ u, isQuoted u = true → isClear u = true → Splits (front ++ .token u :: back) → u ≠ t →
            normalize (bodyOf (front ++ .token u :: back)) ≠ normalize (bodyOf segments) := by
  refine ⟨?_, ?_⟩
  · rw [normalize_bodyOf splits (isClear_of_literals splits clear), String.toList_ofList]
    exact hasInOrder_layOut none false segments
  · rintro front t back rfl quoted
    have kept := normalize_literal splits quoted clear
    refine ⟨kept, fun u isLiteral isClear other differs same => differs ?_⟩
    have also : ∀ s ∈ literals (front ++ .token u :: back), Normal.isClear s = true := by
      rw [literals_around quoted] at clear
      rw [literals_around isLiteral]
      have ⟨before, others⟩ := List.forall_mem_append.mp clear
      exact List.forall_mem_append.mpr
        ⟨before, List.forall_mem_cons.mpr ⟨isClear, (List.forall_mem_cons.mp others).2⟩⟩
    rw [kept, normalize_literal other isLiteral also, ← String.toList_inj] at same
    simpa using same

namespace Sample

def assigned : List Segment :=
  [.token "s".toList, .space [' '], .token "=".toList, .space [' ']]

def added : List Segment :=
  [.token "+".toList, .space [' '], .token "\"// \\\"\"".toList, .space [' '], .token ";".toList]

def textBlock : List Char := "\"\"\"\n a \"\" b \\\" \"\"\"".toList

/-- A text block with an escaped quotation mark in front of two others. -/
def escapedBlock : List Char := "\"\"\"\n\\\"\"\"  b\"\"\"".toList

def escapedBlockEdited : List Char := "\"\"\"\n\\\"\"\" b\"\"\"".toList

def returned : List Segment :=
  [.token ";".toList, .space [' ', ' '], .token "return".toList, .space [' '], .token "x".toList]

end Sample

open Sample

theorem literals_kept_textBlock :
    Splits (assigned ++ .token textBlock :: added) ∧
      (∀ t ∈ literals (assigned ++ .token textBlock :: added), isClear t = true) ∧
      normalize (bodyOf (assigned ++ .token textBlock :: added)) =
        normalize (bodyOf assigned) ++ String.ofList textBlock ++ normalize (bodyOf added) ∧
      normalize (bodyOf (assigned ++ .token "\"\"".toList :: added)) ≠
        normalize (bodyOf (assigned ++ .token textBlock :: added)) := by
  have splits : Splits (assigned ++ .token textBlock :: added) := by decide +kernel
  have clear : ∀ t ∈ literals (assigned ++ .token textBlock :: added), isClear t = true := by
    decide +kernel
  have ⟨kept, apart⟩ := (literals_kept splits clear).2 assigned textBlock added rfl (by decide)
  exact ⟨splits, clear, kept,
    apart "\"\"".toList (by decide) (by decide) (by decide +kernel) (by decide)⟩

/-- The text block ends too early for the automaton: a change of its inside is lost, and blanks of
the code behind it are kept. -/
theorem literal_lost :
    Splits (assigned ++ .token escapedBlock :: returned) ∧
      Splits (assigned ++ .token escapedBlockEdited :: returned) ∧
      isQuoted escapedBlock = true ∧ isQuoted escapedBlockEdited = true ∧
      escapedBlock ≠ escapedBlockEdited ∧
      normalize (bodyOf (assigned ++ .token escapedBlock :: returned)) =
        normalize (bodyOf (assigned ++ .token escapedBlockEdited :: returned)) ∧
      normalize (bodyOf (assigned ++ .token escapedBlock :: returned)) =
        "s=\"\"\"\n\\\"\"\"b\"\"\";  return x" := by
  decide +kernel

end CostWatch

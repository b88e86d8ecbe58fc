import CostWatch.Java.Token
import CostWatch.Proofs.Text.Pattern
import CostWatch.Text.WhiteSpace
import Mathlib.Data.List.Infix

/-!
How a text reads as tokens of Java, white space and comments.

A text is given as its segments. Each segment is judged by itself and by the text after it: a token
is the longest one that stands where it begins, and three quotation marks begin a text block. A
name, a number or an operator has only plain characters in it, apart from slashes.
-/

set_option autoImplicit false

namespace CostWatch.Java

open Text

/-! Tokens -/

def operators : List (List Char) :=
  (Terminal.symbols.map String.toList).filter (·.all fun c => !c.isAlpha && c != '"' && c != '\\')

/-- A literal is closed by a quote at the end of a text, and by none before; `escaped` tells whether
a backslash stands in front of the text. -/
def closes (quote : Char) (escaped : Bool) : List Char → Bool
  | [] => false
  | c :: rest =>
    if c = '\n' then false
    else if escaped then closes quote false rest
    else if c = '\\' then closes quote true rest
    else if c = quote then rest.isEmpty
    else closes quote false rest

/-- A text block is closed at the end of a text, and not before, with `quotes` quotation marks in
front of the text. An escaped quotation mark does not count. -/
def closesBlock (quotes : Nat) (escaped : Bool) : List Char → Bool
  | [] => false
  | c :: rest =>
    if escaped then closesBlock 0 false rest
    else if c = '\\' then closesBlock 0 true rest
    else if c = '"' then
      if quotes = 2 then rest.isEmpty else closesBlock (quotes + 1) false rest
    else closesBlock 0 false rest

inductive IsToken : List Char → Prop where
  | word {t : List Char} : Lexeme.word.matchesAll t = true → IsToken t
  | number {t : List Char} : Lexeme.number.matchesAll t = true → IsToken t
  | operator {t : List Char} : t ∈ operators → IsToken t
  | character {cs : List Char} : cs ≠ ['\''] → closes '\'' false cs = true → IsToken ('\'' :: cs)
  | string {cs : List Char} : closes '"' false cs = true → IsToken ('"' :: cs)
  | block {cs : List Char} : closesBlock 0 false cs = true → IsToken ('"' :: '"' :: '"' :: cs)

def isQuoted : List Char → Bool
  | '\'' :: cs => decide (cs ≠ ['\'']) && closes '\'' false cs
  | '"' :: cs =>
    closes '"' false cs ||
      match cs with
      | '"' :: '"' :: inside => closesBlock 0 false inside
      | _ => false
  | _ => false

theorem isToken_of_isQuoted {t : List Char} (quoted : isQuoted t = true) : IsToken t := by
  unfold isQuoted at quoted
  split at quoted
  · rw [Bool.and_eq_true, decide_eq_true_eq] at quoted
    exact .character quoted.1 quoted.2
  · rw [Bool.or_eq_true] at quoted
    rcases quoted with closed | closed
    · exact .string closed
    · split at closed
      · exact .block closed
      · cases closed
  · cases quoted

theorem isToken_iff {t : List Char} :
    IsToken t ↔ (Lexeme.word.matchesAll t || Lexeme.number.matchesAll t || operators.contains t ||
      isQuoted t) = true := by
  simp only [Bool.or_eq_true, List.contains_iff_mem]
  constructor
  · rintro (matched | matched | listed | ⟨some, closed⟩ | closed | closed)
    · exact .inl (.inl (.inl matched))
    · exact .inl (.inl (.inr matched))
    · exact .inl (.inr listed)
    · exact .inr (by simp [isQuoted, some, closed])
    · exact .inr (by simp [isQuoted, closed])
    · exact .inr (by simp [isQuoted, closed])
  · rintro (((matched | matched) | listed) | quoted)
    · exact .word matched
    · exact .number matched
    · exact .operator listed
    · exact isToken_of_isQuoted quoted

instance (t : List Char) : Decidable (IsToken t) :=
  decidable_of_iff _ isToken_iff.symm

theorem IsToken.ne_nil {t : List Char} (token : IsToken t) : t ≠ [] := by
  rintro rfl
  revert token
  decide

/-! The characters of tokens -/

/-- A character that separates no tokens and begins neither a literal nor a comment. -/
def isPlain (c : Char) : Bool :=
  !isWhiteSpace c && c != '/' && c != '"' && c != '\''

theorem isPlain_of_range {c : Char} (low : 0x30 ≤ c.toNat) (high : c.toNat ≤ 0x7E) :
    isPlain c = true := by
  have ne {d : Char} (small : d.toNat < 0x30) : c ≠ d := fun same => by subst same; omega
  have notSpace : isWhiteSpace c = false := by simp [isWhiteSpace]; omega
  simp [isPlain, notSpace, ne (show '/'.toNat < 0x30 by decide),
    ne (show '"'.toNat < 0x30 by decide), ne (show '\''.toNat < 0x30 by decide)]

theorem isPlain_of_between {a b c : Char} (within : (decide (a ≤ c) && decide (c ≤ b)) = true)
    (low : 0x30 ≤ a.toNat) (high : b.toNat ≤ 0x7E) : isPlain c = true := by
  rw [Bool.and_eq_true, decide_eq_true_eq, decide_eq_true_eq] at within
  exact isPlain_of_range (Nat.le_trans low within.1) (Nat.le_trans within.2 high)

theorem isPlain_of_isDigit {c : Char} (digit : c.isDigit = true) : isPlain c = true :=
  isPlain_of_between digit (by decide) (by decide)

theorem isPlain_of_isAlpha {c : Char} (letter : c.isAlpha = true) : isPlain c = true := by
  rcases (Bool.or_eq_true _ _).mp letter with upper | lower
  · obtain ⟨low, high⟩ := of_decide_eq_true upper
    exact isPlain_of_range (Nat.le_trans (by decide) (UInt32.le_iff_toNat_le.mp low))
      (Nat.le_trans (UInt32.le_iff_toNat_le.mp high) (by decide))
  · exact isPlain_of_between lower (by decide) (by decide)

def wideSpace : List Nat :=
  [0x85, 0xA0, 0x1680, 0x2000, 0x2001, 0x2002, 0x2003, 0x2004, 0x2005, 0x2006, 0x2007, 0x2008,
    0x2009, 0x200A, 0x2028, 0x2029, 0x202F, 0x205F, 0x3000]

theorem xidStart_excludes : ∀ n ∈ wideSpace, xidStartRanges.contains n = false := by
  decide +kernel

theorem xidContinue_excludes : ∀ n ∈ wideSpace, xidContinueRanges.contains n = false := by
  decide +kernel

theorem isPlain_of_member {ascii : Char → Bool} {others : Ranges} {c : Char}
    (plain : ascii c = true → isPlain c = true)
    (excludes : ∀ n ∈ wideSpace, others.contains n = false)
    (member : others.member ascii c = true) : isPlain c = true := by
  rw [Ranges.member] at member
  split at member
  · exact plain member
  · next wide =>
    have notSpace : isWhiteSpace c = false := by
      by_contra space
      have listed : c.toNat ∈ wideSpace := by
        simp [isWhiteSpace] at space
        simp [wideSpace]
        omega
      rw [excludes _ listed] at member
      cases member
    have ne {d : Char} (small : d.toNat < 128) : c ≠ d := fun same => by subst same; omega
    simp [isPlain, notSpace, ne (show '/'.toNat < 128 by decide),
      ne (show '"'.toNat < 128 by decide), ne (show '\''.toNat < 128 by decide)]

theorem isPlain_of_isXidStart {c : Char} (starts : isXidStart c = true) : isPlain c = true :=
  isPlain_of_member isPlain_of_isAlpha xidStart_excludes starts

theorem isPlain_of_isXidContinue {c : Char} (continues : isXidContinue c = true) :
    isPlain c = true := by
  refine isPlain_of_member (fun ascii => ?_) xidContinue_excludes continues
  simp only [Char.isAlphanum, Bool.or_eq_true, beq_iff_eq] at ascii
  rcases ascii with (letter | digit) | rfl
  · exact isPlain_of_isAlpha letter
  · exact isPlain_of_isDigit digit
  · decide

theorem word_within : Lexeme.word.Within (isPlain · = true) := by
  refine ⟨fun c starts => ?_, fun c continues => ?_⟩
  · simp only [Bool.or_eq_true, beq_iff_eq] at starts
    rcases starts with (letter | rfl) | rfl
    · exact isPlain_of_isXidStart letter
    · decide
    · decide
  · simp only [Bool.or_eq_true, beq_iff_eq] at continues
    rcases continues with ((letter | rfl) | rfl) | rfl
    · exact isPlain_of_isXidContinue letter
    · decide
    · decide
    · decide

theorem among_within {cs : List Char} (plain : cs.all isPlain = true) :
    (Lexeme.among cs).Within (isPlain · = true) :=
  fun c member => List.all_eq_true.mp plain c (List.contains_iff_mem.mp member)

theorem number_within : Lexeme.number.Within (isPlain · = true) := by
  have char {c : Char} (plain : isPlain c = true) :
      (Pattern.char c).Within (isPlain · = true) := Pattern.within_char plain
  have low : (Pattern.char '_').Within (isPlain · = true) := char (by decide)
  have point : (Pattern.char '.').Within (isPlain · = true) := char (by decide)
  have digit : Lexeme.digit.Within (isPlain · = true) := fun c => isPlain_of_isDigit
  have hexDigit : Lexeme.hexDigit.Within (isPlain · = true) := by
    intro c member
    simp only [Bool.or_eq_true] at member
    rcases member with (digit | lower) | upper
    · exact isPlain_of_isDigit digit
    · exact isPlain_of_between lower (by decide) (by decide)
    · exact isPlain_of_between upper (by decide) (by decide)
  have octalDigit : Lexeme.octalDigit.Within (isPlain · = true) := fun c member =>
    isPlain_of_between member (by decide) (by decide)
  have first : (Pattern.one fun c => '1' ≤ c && c ≤ '9').Within (isPlain · = true) :=
    fun c member => isPlain_of_between member (by decide) (by decide)
  have grouped {p : Pattern} (each : p.Within (isPlain · = true)) :
      (Lexeme.grouped p).Within (isPlain · = true) := ⟨⟨each, each⟩, low, each, each⟩
  have sign : (Lexeme.among ['-', '+']).Within (isPlain · = true) := among_within (by decide)
  have suffix : Lexeme.floatSuffix.Within (isPlain · = true) := among_within (by decide)
  have long : Lexeme.longSuffix.Within (isPlain · = true) := ⟨among_within (by decide), trivial⟩
  have natural : Lexeme.naturalDigits.Within (isPlain · = true) :=
    ⟨char (by decide), first, ⟨⟨low, trivial⟩, ⟨digit, digit⟩, ⟨low, low⟩, digit, digit⟩, trivial⟩
  have exponent : Lexeme.exponent.Within (isPlain · = true) :=
    ⟨among_within (by decide), ⟨sign, trivial⟩, grouped digit⟩
  have mark {c d : Char} (plain : isPlain c = true) (also : isPlain d = true) :
      (Pattern.exactly [c, d]).Within (isPlain · = true) := ⟨char plain, char also⟩
  have hexMark : Lexeme.hexMark.Within (isPlain · = true) :=
    ⟨mark (by decide) (by decide), mark (by decide) (by decide)⟩
  exact ⟨⟨natural, long⟩, ⟨hexMark, grouped hexDigit, long⟩,
    ⟨⟨mark (by decide) (by decide), mark (by decide) (by decide), char (by decide)⟩,
      grouped octalDigit, long⟩,
    ⟨⟨mark (by decide) (by decide), mark (by decide) (by decide)⟩,
      grouped (among_within (by decide)), long⟩,
    ⟨grouped digit, point, ⟨grouped digit, trivial⟩, ⟨exponent, trivial⟩, suffix, trivial⟩,
    ⟨point, grouped digit, ⟨exponent, trivial⟩, suffix, trivial⟩,
    ⟨natural, exponent, suffix, trivial⟩, ⟨natural, ⟨exponent, trivial⟩, suffix⟩,
    hexMark,
    ⟨⟨grouped hexDigit, point, trivial⟩, ⟨grouped hexDigit, trivial⟩, point, grouped hexDigit⟩,
    ⟨among_within (by decide), ⟨sign, trivial⟩, natural, suffix, trivial⟩, trivial⟩

theorem operators_plain : ∀ t ∈ operators,
    t = ['/'] ∨ t = ['/', '='] ∨ t ≠ [] ∧ t.all isPlain = true := by
  decide +kernel

theorem IsToken.head_ne_blank {c : Char} {t : List Char} (token : IsToken (c :: t)) : c ≠ ' ' := by
  have noBlank {c : Char} (plain : isPlain c = true) : c ≠ ' ' := by
    rintro rfl
    revert plain
    decide
  cases token with
  | word matched => exact noBlank (word_within.of_matchesAll matched c List.mem_cons_self)
  | number matched => exact noBlank (number_within.of_matchesAll matched c List.mem_cons_self)
  | operator listed =>
    rcases operators_plain _ listed with slash | slash | ⟨_, plain⟩
    · exact (List.cons.inj slash).1 ▸ by decide
    · exact (List.cons.inj slash).1 ▸ by decide
    · exact noBlank (List.all_eq_true.mp plain c List.mem_cons_self)
  | character _ _ => decide
  | string _ => decide
  | block _ => decide

/-! Segments of a text -/

/-- A token is what a text begins with that goes on with `rest` after it. -/
structure IsNext (t rest : List Char) : Prop where
  token : IsToken t
  noComment : ¬ ['/', '/'] <+: t ++ rest ∧ ¬ ['/', '*'] <+: t ++ rest
  longest : ∀ s ∈ (t ++ rest).inits, IsToken s → s.length ≤ t.length
  noBlock : t = ['"', '"'] → rest.head? ≠ some '"'

theorem isNext_iff {t rest : List Char} :
    IsNext t rest ↔ IsToken t ∧ (¬ ['/', '/'] <+: t ++ rest ∧ ¬ ['/', '*'] <+: t ++ rest) ∧
      (∀ s ∈ (t ++ rest).inits, IsToken s → s.length ≤ t.length) ∧
      (t = ['"', '"'] → rest.head? ≠ some '"') :=
  ⟨fun next => ⟨next.token, next.noComment, next.longest, next.noBlock⟩,
    fun ⟨token, noComment, longest, noBlock⟩ => ⟨token, noComment, longest, noBlock⟩⟩

instance (t rest : List Char) : Decidable (IsNext t rest) :=
  decidable_of_iff _ isNext_iff.symm

/-- A block comment is closed at the end of a text, and not before; `star` tells whether a star
stands in front of the text. -/
def closesComment (star : Bool) : List Char → Bool
  | [] => false
  | c :: rest => if star && c == '/' then rest.isEmpty else closesComment (c == '*') rest

/-- A segment of a text. A comment is given by what follows its first two characters. -/
inductive Segment where
  | token (text : List Char)
  | space (text : List Char)
  | lineComment (content : List Char)
  | blockComment (content : List Char)
  deriving DecidableEq, Repr

namespace Segment

def text : Segment → List Char
  | token t => t
  | space cs => cs
  | lineComment content => '/' :: '/' :: content
  | blockComment content => '/' :: '*' :: content

def Begins (rest : List Char) : Segment → Prop
  | token t => IsNext t rest
  | space cs => cs ≠ [] ∧ cs.all Lexeme.isSpace = true
  | lineComment content => '\n' ∉ content ∧ (rest = [] ∨ rest.head? = some '\n')
  | blockComment content => closesComment false content = true

instance (rest : List Char) : (segment : Segment) → Decidable (segment.Begins rest)
  | token t => inferInstanceAs (Decidable (IsNext t rest))
  | space cs => inferInstanceAs (Decidable (cs ≠ [] ∧ cs.all Lexeme.isSpace = true))
  | lineComment content =>
    inferInstanceAs (Decidable ('\n' ∉ content ∧ (rest = [] ∨ rest.head? = some '\n')))
  | blockComment content => inferInstanceAs (Decidable (closesComment false content = true))

end Segment

def textOf (segments : List Segment) : List Char :=
  segments.flatMap Segment.text

def Reads : List Segment → Prop
  | [] => True
  | segment :: rest => segment.Begins (textOf rest) ∧ Reads rest

def Reads.decide : (segments : List Segment) → Decidable (Reads segments)
  | [] => .isTrue trivial
  | segment :: rest =>
    @instDecidableAnd (segment.Begins (textOf rest)) (Reads rest) _ (Reads.decide rest)

instance (segments : List Segment) : Decidable (Reads segments) := Reads.decide segments

theorem textOf_cons (segment : Segment) (rest : List Segment) :
    textOf (segment :: rest) = segment.text ++ textOf rest :=
  List.flatMap_cons

def tokens : List Segment → List (List Char)
  | [] => []
  | .token t :: rest => t :: tokens rest
  | .space _ :: rest | .lineComment _ :: rest | .blockComment _ :: rest => tokens rest

end CostWatch.Java

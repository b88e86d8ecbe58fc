import CostWatch.Json.Printer
import CostWatch.Json.Reader
import Mathlib.Data.List.Forall2

/-!
What the readers of tokens read, as laws that say which symbols they use up.

Positions do not matter for what is read. So a law speaks of the symbols that are left, and of how
many more arrays and objects may be opened, which is the same before and after.
-/

set_option autoImplicit false

namespace CostWatch.Json

namespace Cursor

@[simp] theorem rest_advance (c : Cursor) : c.advance.rest = c.rest.tail := by
  obtain ⟨rest, _, _, _, _⟩ := c
  cases rest <;> rfl

@[simp] theorem depth_advance (c : Cursor) : c.advance.depth = c.depth := by
  obtain ⟨rest, _, _, _, _⟩ := c
  cases rest <;> rfl

end Cursor

def symbols (cs : List Char) : List Symbol :=
  cs.map .char

@[simp] theorem symbols_nil : symbols [] = [] := rfl

@[simp] theorem symbols_cons (c : Char) (cs : List Char) :
    symbols (c :: cs) = .char c :: symbols cs := rfl

@[simp] theorem symbols_append (cs ds : List Char) :
    symbols (cs ++ ds) = symbols cs ++ symbols ds :=
  List.map_append

def Blank (cs : List Char) : Prop :=
  ∀ c ∈ cs, Cursor.isBlank c = true

/-- The next symbol belongs to a token, if there is one. -/
def AtToken (text : List Symbol) : Prop :=
  ∀ c, text.head? = some (.char c) → Cursor.isBlank c = false

theorem dropBlanks_rest {c : Cursor} {blanks : List Char} {text : List Symbol}
    (blank : Blank blanks) (token : AtToken text) (before : c.rest = symbols blanks ++ text) :
    c.dropBlanks.rest = text ∧ c.dropBlanks.depth = c.depth := by
  obtain ⟨rest, position, depth, left, counted⟩ := c
  subst before
  unfold Cursor.dropBlanks
  dsimp only
  induction blanks generalizing position left with
  | nil =>
    rw [symbols_nil, List.nil_append] at counted
    cases text with
    | nil => exact ⟨rfl, rfl⟩
    | cons s text =>
      cases s with
      | stray b => exact ⟨rfl, rfl⟩
      | char c =>
        have notBlank : ¬Cursor.isBlank c = true := Bool.eq_false_iff.mp (token c rfl)
        simp [Cursor.dropBlanksFrom, notBlank]
  | cons b blanks ih =>
    have isBlank : Cursor.isBlank b = true := blank b List.mem_cons_self
    simp only [symbols_cons, List.cons_append, Cursor.dropBlanksFrom, isBlank, if_true]
    exact ih (fun c member => blank c (List.mem_cons_of_mem b member)) _ _ (by simp [counted])

namespace Reader

variable {α β : Type}

/-- The reader reads `a` at the beginning of a text and leaves the rest of it. -/
def Reads (r : Reader α) (depth : Nat) (text : List Symbol) (a : α) (rest : List Symbol) : Prop :=
  ∀ c : Cursor, c.rest = text → c.depth = depth →
    ∃ next, r c = .ok (a, next) ∧ next.rest = rest ∧ next.depth = depth

section
variable {depth : Nat} {text rest more : List Symbol}

theorem reads_pure (a : α) : Reads (pure a) depth text a text :=
  fun c before same => ⟨c, rfl, before, same⟩

theorem Reads.bind {r : Reader α} {f : α → Reader β} {a : α} {b : β}
    (first : Reads r depth text a more) (second : Reads (f a) depth more b rest) :
    Reads (r >>= f) depth text b rest := by
  intro c before same
  obtain ⟨next, read, between, same⟩ := first c before same
  obtain ⟨last, readAll, after, same⟩ := second next between same
  exact ⟨last, (bind_ok read f).trans readAll, after, same⟩

theorem Reads.result {r : Reader α} {a : α} (read : Reads r depth text a rest) (c : Cursor)
    (before : c.rest = text) (same : c.depth = depth) : (r c).map (·.1) = .ok a := by
  obtain ⟨next, ok, _⟩ := read c before same
  rw [ok]
  rfl

theorem Reads.map {r : Reader α} {f : α → β} {a : α} (first : Reads r depth text a rest) :
    Reads (f <$> r) depth text (f a) rest :=
  first.bind (reads_pure (f a))

theorem Reads.settled {r : Reader α} {a : α} (read : Reads r depth text a rest) :
    Reads (settled r) depth text a rest := by
  intro c before same
  obtain ⟨next, ok, after, same⟩ := read c before same
  refine ⟨next, ?_, after, same⟩
  rw [Reader.settled, ok]
  rfl

theorem reads_step (s : Symbol) : Reads step depth (s :: rest) () rest :=
  fun c before same => ⟨c.advance, rfl, by rw [Cursor.rest_advance, before, List.tail_cons],
    c.depth_advance.trans same⟩

theorem reads_next? : Reads next? depth text text.head? text :=
  fun c before same => ⟨c, by rw [next?, before], before, same⟩

theorem reads_token? {blanks : List Char} (blank : Blank blanks) (token : AtToken text) :
    Reads token? depth (symbols blanks ++ text) text.head? text := by
  intro c before same
  obtain ⟨after, sameDepth⟩ := dropBlanks_rest blank token before
  exact ⟨c.dropBlanks, by rw [token?, after], after, sameDepth.trans same⟩

theorem reads_word (cs : List Char) : Reads (word cs) depth (symbols cs ++ rest) () rest := by
  induction cs with
  | nil => exact reads_pure ()
  | cons c cs ih =>
    refine reads_next?.bind ?_
    simp only [symbols_cons, List.cons_append, List.head?_cons, if_true]
    exact (reads_step _).bind ih

/-! Strings -/

theorem reads_shortEscape {letter c : Char} (short : shortEscape? letter = some c) :
    Reads escape depth (.char letter :: rest) c rest := by
  have notU : letter ≠ 'u' := fun same => by rw [same] at short; cases short
  refine reads_next?.bind ?_
  rw [List.head?_cons]
  split
  · next none => cases none
  · next u =>
    -- The letter of a longer escape is none of these.
    cases u
    exact absurd rfl notU
  · next letter _ same =>
    cases same
    rw [short]
    exact (reads_step _).bind (reads_pure c)
  · next stray => cases stray

theorem hexValue?_hexDigit : ∀ n < 16, hexValue? (hexDigit n) = some n := by decide

theorem utf8Size_hexDigit : ∀ n < 16, (hexDigit n).utf8Size = 1 := by decide

theorem reads_hexEscape {n : Nat} (small : n < 256) :
    Reads hexEscape depth
      (symbols ['0', '0', hexDigit (n / 16), hexDigit (n % 16)] ++ rest) n rest := by
  have high : n / 16 < 16 := by omega
  have low : n % 16 < 16 := by omega
  intro c before same
  have skips : ∃ position, c.position.skip? 4 c.rest = some position := by
    have zero : '0'.utf8Size = 1 := rfl
    rw [before]
    cases rest <;>
      simp [Position.skip?, Symbol.width, zero, utf8Size_hexDigit _ high, utf8Size_hexDigit _ low]
  have digits : fourHexDigits? c.rest = some n := by
    have zero : hexValue? '0' = some 0 := rfl
    rw [before]
    simp only [symbols_cons, symbols_nil, List.cons_append, List.nil_append, fourHexDigits?, zero,
      hexValue?_hexDigit _ high, hexValue?_hexDigit _ low, Option.bind_eq_bind, Option.bind_some]
    exact congrArg some (by omega)
  obtain ⟨position, skips⟩ := skips
  refine ⟨c.advance.advance.advance.advance, ?_, by simp [before], by simp [same]⟩
  rw [hexEscape, skips, digits]

theorem reads_unicodeEscape {n : Nat} (control : n < 0x20) :
    Reads unicodeEscape depth
      (symbols ['0', '0', hexDigit (n / 16), hexDigit (n % 16)] ++ rest) (Char.ofNat n) rest := by
  refine (reads_hexEscape (by omega)).bind ?_
  have notTrailing : ¬isTrailing n = true := by simp [isTrailing]; omega
  have notLeading : ¬isLeading n = true := by simp [isLeading]; omega
  rw [if_neg notTrailing, if_neg notLeading]
  exact reads_pure _

/-- A character is written by an escape, which is read back, or it stands for itself. -/
theorem escapeChar_cases (c : Char) :
    (∃ letters, escapeChar c = '\\' :: letters ∧
        ∀ {depth : Nat} {rest : List Symbol},
          Reads escape depth (symbols letters ++ rest) c rest) ∨
      (escapeChar c = [c] ∧ ¬c.toNat < 0x20 ∧ c ≠ '"' ∧ c ≠ '\\') := by
  unfold escapeChar
  split
  · exact .inl ⟨['"'], rfl, reads_shortEscape rfl⟩
  · exact .inl ⟨['\\'], rfl, reads_shortEscape rfl⟩
  · exact .inl ⟨['b'], rfl, reads_shortEscape rfl⟩
  · exact .inl ⟨['f'], rfl, reads_shortEscape rfl⟩
  · exact .inl ⟨['n'], rfl, reads_shortEscape rfl⟩
  · exact .inl ⟨['r'], rfl, reads_shortEscape rfl⟩
  · exact .inl ⟨['t'], rfl, reads_shortEscape rfl⟩
  · next notQuote notBackslash _ _ _ _ _ =>
    split
    · next control =>
      refine .inl ⟨_, rfl, fun {depth rest} => reads_next?.bind ((reads_step _).bind ?_)⟩
      have read : Reads unicodeEscape depth (_ ++ rest) _ rest := reads_unicodeEscape control
      rwa [Char.ofNat_toNat] at read
    · next plain => exact .inr ⟨rfl, plain, notQuote, notBackslash⟩

theorem length_le_flatMap_escapeChar (cs : List Char) :
    cs.length ≤ (cs.flatMap escapeChar).length := by
  induction cs with
  | nil => exact Nat.zero_le _
  | cons c cs ih =>
    have positive : 0 < (escapeChar c).length := by
      rcases escapeChar_cases c with ⟨letters, same, _⟩ | ⟨same, _⟩ <;> simp [same]
    rw [List.flatMap_cons, List.length_append, List.length_cons]
    omega

/-- A string in which the characters of `done` have been read already. -/
theorem reads_stringFrom (body done : List Char) {steps : Nat} (enough : body.length < steps) :
    Reads (stringFrom done none steps) depth
      (symbols (body.flatMap escapeChar ++ ['"']) ++ rest) (String.ofList (done.reverse ++ body))
      rest := by
  obtain ⟨steps, rfl⟩ : ∃ more, steps = more + 1 := ⟨steps - 1, by omega⟩
  induction body generalizing done steps with
  | nil =>
    refine reads_next?.bind ((reads_step _).bind ?_)
    rw [List.append_nil]
    exact reads_pure _
  | cons c body ih =>
    obtain ⟨more, rfl⟩ : ∃ more, steps = more + 1 :=
      ⟨steps - 1, by rw [List.length_cons] at enough; omega⟩
    have tail := ih (c :: done) more (by simpa using enough)
    rw [List.reverse_cons, List.append_assoc, List.singleton_append] at tail
    rw [List.flatMap_cons]
    rcases escapeChar_cases c with
      ⟨letters, same, escaped⟩ | ⟨same, plain, notQuote, notBackslash⟩
    · rw [same, List.append_assoc, symbols_append, List.append_assoc]
      exact reads_next?.bind ((reads_step _).bind (escaped.bind tail))
    · rw [same]
      refine reads_next?.bind ?_
      simp only [List.cons_append, List.nil_append, symbols_cons, List.head?_cons]
      refine (reads_step _).bind ?_
      rw [if_neg plain]
      exact tail

theorem reads_string (s : String) :
    Reads string depth (symbols (s.toList.flatMap escapeChar ++ ['"']) ++ rest) s rest := by
  intro c before same
  have enough : s.toList.length < c.steps := by
    have longer := length_le_flatMap_escapeChar s.toList
    rw [c.steps_eq, before, List.length_append, symbols, List.length_map, List.length_append]
    omega
  have read := reads_stringFrom s.toList [] enough c before same
  rwa [List.reverse_nil, List.nil_append, String.ofList_toList] at read

/-! Numbers -/

/-- The text ends, or something follows that can stand after a value. -/
def Delimited (rest : List Symbol) : Prop :=
  ∀ c, rest.head? = some (.char c) → c = ',' ∨ c = ']' ∨ c = '\x7d' ∨ Cursor.isBlank c = true

theorem Delimited.not_number {c : Char} (ends : Delimited rest)
    (next : rest.head? = some (.char c)) :
    c.isDigit = false ∧ c ≠ '.' ∧ c ≠ 'e' ∧ c ≠ 'E' := by
  rcases ends c next with rfl | rfl | rfl | blank
  · decide
  · decide
  · decide
  · simp only [Cursor.isBlank, Bool.or_eq_true, beq_iff_eq] at blank
    rcases blank with ((rfl | rfl) | rfl) | rfl <;> decide

theorem reads_digitsFrom (cs : List Char) {steps : Nat} (enough : cs.length ≤ steps)
    (digits : ∀ c ∈ cs, c.isDigit = true) (ends : Delimited rest) :
    Reads (digitsFrom steps) depth (symbols cs ++ rest) (cs.map fun c => c.toNat - '0'.toNat)
      rest := by
  induction cs generalizing steps with
  | nil =>
    cases steps with
    | zero => exact reads_pure []
    | succ steps =>
      refine reads_next?.bind ?_
      rw [symbols_nil, List.nil_append]
      split
      · next c next =>
        have notDigit : ¬c.isDigit = true := by simp [(ends.not_number next).1]
        rw [Text.digitValue?, if_neg notDigit]
        exact reads_pure []
      · exact reads_pure []
  | cons c cs ih =>
    obtain ⟨more, rfl⟩ : ∃ more, steps = more + 1 :=
      ⟨steps - 1, by rw [List.length_cons] at enough; omega⟩
    obtain ⟨isDigit, digits⟩ := List.forall_mem_cons.mp digits
    refine reads_next?.bind ?_
    simp only [symbols_cons, List.cons_append, List.head?_cons, Text.digitValue?, isDigit, if_true]
    exact (reads_step _).bind ((ih (by simpa using enough) digits).bind (reads_pure _))

theorem reads_digits {cs : List Char} (areDigits : ∀ c ∈ cs, c.isDigit = true)
    (ends : Delimited rest) :
    Reads digits depth (symbols cs ++ rest) (cs.map fun c => c.toNat - '0'.toNat) rest := by
  intro c before same
  have enough : cs.length ≤ c.steps := by
    rw [c.steps_eq, before, List.length_append, symbols, List.length_map]
    omega
  exact reads_digitsFrom cs enough areDigits ends c before same

theorem le_ofDigitChars (cs : List Char) (value : Nat) :
    value ≤ Nat.ofDigitChars 10 cs value := by
  induction cs generalizing value with
  | nil => exact Nat.le_refl _
  | cons c cs ih =>
    rw [Nat.ofDigitChars_cons]
    exact Nat.le_trans (by omega) (ih _)

theorem take_digits (cs : List Char) (value : Nat)
    (fits : Nat.ofDigitChars 10 cs value ≤ Text.maxWord64) :
    Significand.take ⟨value, 0⟩ (cs.map fun c => c.toNat - '0'.toNat) =
      ⟨Nat.ofDigitChars 10 cs value, 0⟩ := by
  induction cs generalizing value with
  | nil => rfl
  | cons c cs ih =>
    rw [Nat.ofDigitChars_cons, Nat.mul_comm] at fits ⊢
    rw [List.map_cons, Significand.take, if_pos (Nat.le_trans (le_ofDigitChars cs _) fits)]
    exact ih _ fits

theorem head?_toDigits {n : Nat} (positive : n ≠ 0) : (Nat.toDigits 10 n).head? ≠ some '0' := by
  induction n using Nat.strongRecOn with
  | ind n ih =>
    by_cases small : n < 10
    · rw [Nat.toDigits_of_lt_base small]
      simpa [Nat.digitChar_eq_zero] using positive
    · have shorter := ih (n / 10) (by omega) (by omega)
      rw [Nat.toDigits_of_base_le (by omega) (by omega)]
      cases written : Nat.toDigits 10 (n / 10) with
      | nil => exact absurd written Nat.toDigits_ne_nil
      | cons c cs =>
        rw [written] at shorter
        exact shorter

theorem reads_numberTail {n : Nat} (ends : Delimited rest) :
    Reads (numberTail false ⟨n, 0⟩) depth rest (.natural n) rest := by
  refine reads_next?.bind ?_
  split
  · next next => exact absurd rfl (ends.not_number next).2.1
  · next next => exact absurd rfl (ends.not_number next).2.2.1
  · next next => exact absurd rfl (ends.not_number next).2.2.2
  · exact reads_pure _

theorem reads_number {n : Nat} (fits : n ≤ Text.maxWord64) (ends : Delimited rest) :
    Reads (number false) depth (symbols (Nat.toDigits 10 n) ++ rest) (.natural n) rest := by
  have areDigits : ∀ c ∈ Nat.toDigits 10 n, c.isDigit = true :=
    fun c => Nat.isDigit_of_mem_toDigits (by omega) (by omega)
  by_cases zero : n = 0
  · subst zero
    rw [Nat.toDigits_zero]
    refine reads_next?.bind ((reads_step _).bind (reads_next?.bind ?_))
    split
    · next c next =>
      have notDigit : ¬c.isDigit = true := by simp [(ends.not_number next).1]
      rw [if_neg notDigit]
      exact reads_numberTail ends
    · exact reads_numberTail ends
  · have all : Reads digits depth _ _ rest := reads_digits areDigits ends
    have whole := take_digits (Nat.toDigits 10 n) 0 (by rwa [Nat.ofDigitChars_ten_toDigits])
    rw [Nat.ofDigitChars_ten_toDigits] at whole
    have leading := head?_toDigits zero
    cases written : Nat.toDigits 10 n with
    | nil => exact absurd written Nat.toDigits_ne_nil
    | cons c cs =>
      rw [written] at all whole areDigits leading
      have isDigit := areDigits c List.mem_cons_self
      have notZero : c ≠ '0' := fun same => leading (congrArg some same)
      refine reads_next?.bind ?_
      simp only [symbols_cons, List.cons_append, List.head?_cons, notZero, isDigit, if_true,
        if_false]
      refine all.bind ?_
      rw [whole]
      exact reads_numberTail ends

/-! Arrays and objects -/

def Begins (cs : List Char) : Prop :=
  ∃ c, cs.head? = some c ∧ Cursor.isBlank c = false ∧ c ≠ ',' ∧ c ≠ ']' ∧ c ≠ '\x7d'

theorem Begins.atToken {cs : List Char} (begins : Begins cs) : AtToken (symbols cs ++ rest) := by
  obtain ⟨c, head, notBlank, _⟩ := begins
  obtain ⟨cs, rfl⟩ : ∃ tail, cs = c :: tail := List.head?_eq_some_iff.mp head
  intro d same
  cases same
  exact notBlank

theorem reads_enclosed {leave : Closing} {close : Reader Unit} {inside : Reader α} {a : α}
    {opening : Symbol} (deep : 0 < depth) (inner : Reads inside depth text a more)
    (closed : Reads close (depth + 1) more () rest) :
    Reads (enclosed leave close inside) (depth + 1) (opening :: text) a rest := by
  intro c before same
  obtain ⟨next, read, between, _⟩ := inner { c.advance with depth := c.depth - 1 }
    (by rw [Cursor.rest_advance, before, List.tail_cons]) (by rw [same]; rfl)
  obtain ⟨last, readEnd, after, sameDepth⟩ := closed { next with depth := c.depth } between same
  refine ⟨last, ?_, after, sameDepth⟩
  rw [enclosed, if_neg (by omega), read]
  dsimp only
  rw [readEnd]

theorem blank_nil : Blank [] :=
  fun _ member => absurd member List.not_mem_nil

theorem reads_closeArray : Reads closeArray depth (.char ']' :: rest) () rest :=
  (reads_token? blank_nil (by rintro c ⟨⟩; rfl)).bind (reads_step _)

theorem reads_closeObject : Reads closeObject depth (.char '\x7d' :: rest) () rest :=
  (reads_token? blank_nil (by rintro c ⟨⟩; rfl)).bind (reads_step _)

theorem reads_colon {blanks : List Char} (blank : Blank blanks) :
    Reads colon depth (symbols (blanks ++ [':']) ++ rest) () rest := by
  rw [symbols_append, List.append_assoc]
  exact (reads_token? blank (by rintro c ⟨⟩; rfl)).bind (reads_step _)

/-- What follows an item: commas and further items, with blanks around them. -/
inductive Further : List (List Char) → List Char → Prop where
  | done {blanks : List Char} : Blank blanks → Further [] blanks
  | more {blanks between item cs : List Char} {items : List (List Char)} :
      Blank blanks → Blank between → Further items cs →
      Further (item :: items) (blanks ++ ',' :: (between ++ (item ++ cs)))

/-- Items with commas between them, and blanks around. -/
inductive Row : List (List Char) → List Char → Prop where
  | empty {blanks : List Char} : Blank blanks → Row [] blanks
  | items {blanks item cs : List Char} {items : List (List Char)} :
      Blank blanks → Further items cs → Row (item :: items) (blanks ++ (item ++ cs))

theorem Further.length_le {items : List (List Char)} {cs : List Char} (further : Further items cs) :
    items.length ≤ cs.length := by
  induction further with
  | done blank => exact Nat.zero_le _
  | more blank between further ih =>
    simp only [List.length_append, List.length_cons]
    omega

theorem Row.length_le {items : List (List Char)} {cs : List Char} (row : Row items cs) :
    items.length ≤ cs.length + 1 := by
  cases row with
  | empty blank => exact Nat.zero_le _
  | items blank further =>
    have enough := further.length_le
    simp only [List.length_append, List.length_cons]
    omega

theorem Further.delimited {items : List (List Char)} {cs : List Char} {closing : Char}
    (further : Further items cs) (closes : closing = ']' ∨ closing = '\x7d') :
    Delimited (symbols cs ++ .char closing :: rest) := by
  have afterBlanks {blanks : List Char} {after : List Symbol} (blank : Blank blanks)
      (ends : Delimited after) : Delimited (symbols blanks ++ after) := by
    cases blanks with
    | nil => exact ends
    | cons b blanks =>
      rintro c ⟨⟩
      exact .inr (.inr (.inr (blank b List.mem_cons_self)))
  cases further with
  | done blank =>
    refine afterBlanks blank ?_
    rintro c ⟨⟩
    rcases closes with rfl | rfl <;> simp
  | more blank between further =>
    rw [symbols_append, List.append_assoc]
    refine afterBlanks blank ?_
    rintro c ⟨⟩
    exact .inl rfl

/-- An element is read from a text, whatever follows it. -/
def ReadsItem (element : Reader α) (depth : Nat) (a : α) (item : List Char) : Prop :=
  Begins item ∧ ∀ rest, Delimited rest → Reads element depth (symbols item ++ rest) a rest

section
variable {item cs blanks between : List Char}

theorem reads_nextElement_first (blank : Blank blanks) (begins : Begins item) :
    Reads (nextElement true) depth (symbols (blanks ++ (item ++ cs)) ++ rest) true
      (symbols item ++ (symbols cs ++ rest)) := by
  simp only [symbols_append, List.append_assoc]
  refine (reads_token? blank begins.atToken).bind ?_
  obtain ⟨c, head, _, notComma, notEnd, _⟩ := begins
  obtain ⟨tail, rfl⟩ := List.head?_eq_some_iff.mp head
  simp only [symbols_cons, List.cons_append, List.head?_cons, Symbol.char.injEq, notEnd,
    notComma, false_and, if_false, if_true]
  exact reads_pure true

theorem reads_nextElement_further (blank : Blank blanks) (blankBetween : Blank between)
    (begins : Begins item) :
    Reads (nextElement false) depth
      (symbols (blanks ++ ',' :: (between ++ (item ++ cs))) ++ rest) true
      (symbols item ++ (symbols cs ++ rest)) := by
  simp only [symbols_append, symbols_cons, List.append_assoc, List.cons_append]
  refine (reads_token? blank (by rintro c ⟨⟩; rfl)).bind ((reads_step _).bind ?_)
  refine (reads_token? blankBetween begins.atToken).bind ?_
  obtain ⟨c, head, _, _, notEnd, _⟩ := begins
  obtain ⟨tail, rfl⟩ := List.head?_eq_some_iff.mp head
  simp only [symbols_cons, List.cons_append, List.head?_cons, Symbol.char.injEq, notEnd,
    if_false]
  exact reads_pure true

theorem reads_nextElement_end {first : Bool} (blank : Blank blanks) :
    Reads (nextElement first) depth (symbols blanks ++ .char ']' :: rest) false
      (.char ']' :: rest) :=
  (reads_token? blank (by rintro c ⟨⟩; rfl)).bind (reads_pure false)

end

theorem reads_elementsFrom {element : Reader α} {values : List α} {items : List (List Char)}
    {cs : List Char} {steps : Nat} (each : List.Forall₂ (ReadsItem element depth) values items)
    (further : Further items cs) (enough : items.length < steps) :
    Reads (elementsFrom element false steps) depth (symbols cs ++ .char ']' :: rest) values
      (.char ']' :: rest) := by
  obtain ⟨steps, rfl⟩ : ∃ more, steps = more + 1 := ⟨steps - 1, by omega⟩
  induction each generalizing cs steps with
  | nil =>
    cases further with
    | done blank => exact (reads_nextElement_end blank).bind (reads_pure [])
  | @cons a item values items reads each ih =>
    cases further with
    | more blank blankBetween further =>
      obtain ⟨begins, read⟩ := reads
      obtain ⟨more, rfl⟩ : ∃ more, steps = more + 1 :=
        ⟨steps - 1, by rw [List.length_cons] at enough; omega⟩
      refine (reads_nextElement_further blank blankBetween begins).bind ?_
      refine (read _ (further.delimited (.inl rfl))).bind ?_
      exact (ih further more (by simpa using enough)).bind (reads_pure _)

theorem reads_elements {element : Reader α} {values : List α} {items : List (List Char)}
    {cs : List Char} (each : List.Forall₂ (ReadsItem element depth) values items)
    (row : Row items cs) :
    Reads (elements element) depth (symbols cs ++ .char ']' :: rest) values
      (.char ']' :: rest) := by
  intro c before same
  have enough : items.length < c.steps := by
    have longer := row.length_le
    rw [c.steps_eq, before, List.length_append, symbols, List.length_map, List.length_cons]
    omega
  obtain ⟨steps, isSucc⟩ : ∃ more, c.steps = more + 1 := ⟨c.left, rfl⟩
  rw [elements, isSucc]
  rw [isSucc] at enough
  -- The first element has no comma in front; all others are read alike.
  refine (?_ : Reads (elementsFrom element true (steps + 1)) depth _ values _) c before same
  cases row with
  | empty blank =>
    cases each
    exact (reads_nextElement_end blank).bind (reads_pure [])
  | items blank further =>
    cases each with
    | cons reads each =>
      obtain ⟨begins, read⟩ := reads
      refine (reads_nextElement_first blank begins).bind ?_
      refine (read _ (further.delimited (.inl rfl))).bind ?_
      exact (reads_elementsFrom each further (by simpa using enough)).bind (reads_pure _)

def entryText (entry : String × List Char) : List Char :=
  printString entry.1 ++ entry.2

/-- Entries, each with the text after its key, that lead from one state to another. -/
inductive Takes {σ : Type} (entry : String → σ → Reader σ) (depth : Nat) :
    List (String × List Char) → σ → σ → Prop where
  | nil (state : σ) : Takes entry depth [] state state
  | cons {key : String} {text : List Char} {items : List (String × List Char)}
      {before between after : σ} :
      (∀ rest, Delimited rest →
        Reads (entry key before) depth (symbols text ++ rest) between rest) →
      Takes entry depth items between after →
      Takes entry depth ((key, text) :: items) before after

section
variable {σ : Type} {entry : String → σ → Reader σ} {items : List (String × List Char)}
  {before after : σ}

theorem reads_entriesFrom {cs : List Char} {steps : Nat}
    (each : Takes entry depth items before after) (further : Further (items.map entryText) cs)
    (enough : items.length < steps) :
    Reads (entriesFrom entry false before steps) depth (symbols cs ++ .char '\x7d' :: rest) after
      (.char '\x7d' :: rest) := by
  obtain ⟨steps, rfl⟩ : ∃ more, steps = more + 1 := ⟨steps - 1, by omega⟩
  induction each generalizing cs steps with
  | nil state =>
    cases further with
    | done blank =>
      have noMore : Reads (nextKey false) depth (symbols cs ++ .char '\x7d' :: rest) none
          (.char '\x7d' :: rest) :=
        (reads_token? blank (by rintro c ⟨⟩; rfl)).bind (reads_pure none)
      exact noMore.bind (reads_pure state)
  | @cons key text items before between after read each ih =>
    cases further with
    | @more blanks gap _ cs _ blank blankGap further =>
      obtain ⟨more, rfl⟩ : ∃ more, steps = more + 1 :=
        ⟨steps - 1, by rw [List.length_cons] at enough; omega⟩
      have another : Reads (nextKey false) depth
          (symbols (blanks ++ ',' :: (gap ++ (entryText (key, text) ++ cs))) ++
            .char '\x7d' :: rest)
          (some key) (symbols text ++ (symbols cs ++ .char '\x7d' :: rest)) := by
        simp only [entryText, symbols_append, symbols_cons, List.append_assoc, List.cons_append]
        refine (reads_token? blank (by rintro c ⟨⟩; rfl)).bind ((reads_step _).bind ?_)
        refine (reads_token? blankGap (by rintro c ⟨⟩; rfl)).bind ((reads_step _).bind ?_)
        exact (reads_string key).map
      refine another.bind ?_
      refine (read _ (further.delimited (.inr rfl))).bind ?_
      exact ih further more (by simpa using enough)

theorem reads_entries {cs : List Char} (each : Takes entry depth items before after)
    (row : Row (items.map entryText) cs) :
    Reads (entries entry before) depth (symbols cs ++ .char '\x7d' :: rest) after
      (.char '\x7d' :: rest) := by
  intro c here same
  have enough : items.length < c.steps := by
    have longer := row.length_le
    rw [List.length_map] at longer
    rw [c.steps_eq, here, List.length_append, symbols, List.length_map, List.length_cons]
    omega
  obtain ⟨steps, isSucc⟩ : ∃ more, c.steps = more + 1 := ⟨c.left, rfl⟩
  rw [entries, isSucc]
  rw [isSucc] at enough
  refine (?_ : Reads (entriesFrom entry true before (steps + 1)) depth _ after _) c here same
  cases each with
  | nil =>
    cases row with
    | empty blank =>
      have noneAtAll : Reads (nextKey true) depth (symbols cs ++ .char '\x7d' :: rest) none
          (.char '\x7d' :: rest) :=
        (reads_token? blank (by rintro c ⟨⟩; rfl)).bind (reads_pure none)
      exact noneAtAll.bind (reads_pure before)
  | @cons key text items _ between _ read each =>
    cases row with
    | @items blanks _ cs _ blank further =>
      have one : Reads (nextKey true) depth
          (symbols (blanks ++ (entryText (key, text) ++ cs)) ++ .char '\x7d' :: rest)
          (some key) (symbols text ++ (symbols cs ++ .char '\x7d' :: rest)) := by
        simp only [entryText, symbols_append, List.append_assoc]
        refine (reads_token? blank (by rintro c ⟨⟩; rfl)).bind ((reads_step _).bind ?_)
        exact (reads_string key).map
      refine one.bind ?_
      refine (read _ (further.delimited (.inr rfl))).bind ?_
      exact reads_entriesFrom each further (by simpa using enough)

end

theorem Reads.whole {r : Reader α} {a : α} (read : Reads r maxDepth text a []) :
    Reader.whole r text = .ok a := by
  have atEnd : Reads token? maxDepth [] none [] := reads_token? blank_nil nofun
  unfold Reader.whole
  dsimp only
  refine Reads.result (?_ : Reads _ maxDepth text a []) (Cursor.start text) rfl rfl
  exact read.bind (atEnd.bind (reads_pure a))

end

end Reader

end CostWatch.Json

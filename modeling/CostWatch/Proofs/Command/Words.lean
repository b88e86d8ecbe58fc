import CostWatch.Session.Request
import Mathlib.Data.List.Basic

/-!
The grammar of commands.

A command is a row of words with white space between them, and a word is a row of pieces. The
grammar says which words a command spells and where a command is left unfinished; splitting a
command finds exactly that. So each word can be quoted in any style and is split back into itself.
-/

set_option autoImplicit false

namespace CostWatch.Command

/-! Grammar -/

inductive Inside : List Char → List Char → Prop where
  | nil : Inside [] []
  | plain {c : Char} {cs w : List Char} :
      c ≠ '"' → c ≠ '\\' → Inside cs w → Inside (c :: cs) (c :: w)
  /-- A backslash before a quote or a backslash stands for the latter. -/
  | escape {c : Char} {cs w : List Char} :
      c = '"' ∨ c = '\\' → Inside cs w → Inside ('\\' :: c :: cs) (c :: w)
  /-- A backslash before anything else is kept. -/
  | pair {c : Char} {cs w : List Char} :
      c ≠ '"' → c ≠ '\\' → Inside cs w → Inside ('\\' :: c :: cs) ('\\' :: c :: w)

inductive Piece : List Char → List Char → Prop where
  | bare {c : Char} : Text.isWhiteSpace c = false → c ∉ ['\'', '"', '\\'] → Piece [c] [c]
  | escaped (c : Char) : Piece ['\\', c] [c]
  | single {cs : List Char} : '\'' ∉ cs → Piece ('\'' :: cs ++ ['\'']) cs
  | double {cs w : List Char} : Inside cs w → Piece ('"' :: cs ++ ['"']) w

inductive Word : List Char → List Char → Prop where
  | piece {cs w : List Char} : Piece cs w → Word cs w
  | join {cs w cs' w' : List Char} : Piece cs w → Word cs' w' → Word (cs ++ cs') (w ++ w')

def IsBlank (cs : List Char) : Prop :=
  ∀ c ∈ cs, Text.isWhiteSpace c = true

inductive Row : List Char → List (List Char) → Prop where
  | word {cs w : List Char} : Word cs w → Row cs [w]
  | next {cs w gap rest : List Char} {ws : List (List Char)} :
      Word cs w → IsBlank gap → gap ≠ [] → Row rest ws → Row (cs ++ gap ++ rest) (w :: ws)

/-- The words that a text spells; none at all if it is blank. -/
inductive Spells : List Char → List (List Char) → Prop where
  | nothing {cs : List Char} : IsBlank cs → Spells cs []
  | row {front cs back : List Char} {ws : List (List Char)} :
      IsBlank front → Row cs ws → IsBlank back → Spells (front ++ cs ++ back) ws

/-- A piece that has been begun and does not end. -/
inductive Unfinished : List Char → SplitFault → Prop where
  | single {cs : List Char} : '\'' ∉ cs → Unfinished ('\'' :: cs) .openSingleQuote
  /-- The last character of the text may be a backslash that escapes nothing. -/
  | double {cs w back : List Char} :
      Inside cs w → back ∈ [[], ['\\']] → Unfinished ('"' :: cs ++ back) .openDoubleQuote
  | backslash : Unfinished ['\\'] .trailingBackslash

/-- Why a command has no words: it is blank, or its end is not finished. -/
inductive Fails : List Char → SplitFault → Prop where
  | blank {cs : List Char} : IsBlank cs → Fails cs .noWord
  | unfinished {front back : List Char} {ws : List (List Char)} {fault : SplitFault} :
      Spells front ws → Unfinished back fault → Fails (front ++ back) fault

/-! What is read of a text -/

section

variable {c : Char} (word : Option (List Char)) (rest : List Char)

theorem wordsFrom_blank (blank : Text.isWhiteSpace c = true) :
    wordsFrom .none word (c :: rest) = (wordsFrom .none none rest).map (word.toList ++ ·) := by
  rw [wordsFrom.eq_def]
  exact if_pos blank

theorem wordsFrom_bare (notBlank : Text.isWhiteSpace c = false) (plain : c ∉ ['\'', '"', '\\']) :
    wordsFrom .none word (c :: rest) = wordsFrom .none (some (word.getD [] ++ [c])) rest := by
  simp only [List.mem_cons, List.not_mem_nil, or_false, not_or] at plain
  rw [wordsFrom.eq_def]
  simp [notBlank, plain]

theorem wordsFrom_escaped :
    wordsFrom .none word ('\\' :: c :: rest) =
      wordsFrom .none (some (word.getD [] ++ [c])) rest := by
  rw [wordsFrom.eq_def]
  rfl

theorem wordsFrom_singleQuote :
    wordsFrom .none word ('\'' :: rest) = wordsFrom .single (some (word.getD [])) rest := by
  rw [wordsFrom.eq_def]
  rfl

theorem wordsFrom_doubleQuote :
    wordsFrom .none word ('"' :: rest) = wordsFrom .double (some (word.getD [])) rest := by
  rw [wordsFrom.eq_def]
  rfl

end

section

variable {cs w : List Char} (rest : List Char)

theorem wordsFrom_single (word : List Char) (noQuote : '\'' ∉ cs) :
    wordsFrom .single (some word) (cs ++ rest) = wordsFrom .single (some (word ++ cs)) rest := by
  induction cs generalizing word with
  | nil => rw [List.nil_append, List.append_nil]
  | cons c cs ih =>
    have ⟨other, noMore⟩ := List.ne_and_not_mem_of_not_mem_cons noQuote
    rw [List.cons_append, wordsFrom, if_neg (Ne.symm other), ih _ noMore, Option.getD_some,
      List.append_assoc, List.singleton_append]

theorem wordsFrom_inside (word : List Char) (inside : Inside cs w) :
    wordsFrom .double (some word) (cs ++ rest) = wordsFrom .double (some (word ++ w)) rest := by
  induction inside generalizing word with
  | nil => rw [List.nil_append, List.append_nil]
  | plain noQuote noBackslash _ ih =>
    rw [List.cons_append, wordsFrom.eq_def]
    simp [noQuote, noBackslash, ih]
  | escape special _ ih =>
    rw [List.cons_append, List.cons_append, wordsFrom.eq_def]
    simp [special, ih]
  | pair noQuote noBackslash _ ih =>
    rw [List.cons_append, List.cons_append, wordsFrom.eq_def]
    simp [noQuote, noBackslash, ih]

theorem wordsFrom_piece (word : Option (List Char)) (piece : Piece cs w) :
    wordsFrom .none word (cs ++ rest) = wordsFrom .none (some (word.getD [] ++ w)) rest := by
  cases piece with
  | bare notBlank plain => exact wordsFrom_bare word rest notBlank plain
  | escaped c => exact wordsFrom_escaped word rest
  | single noQuote =>
    rw [List.append_assoc, List.cons_append, wordsFrom_singleQuote, wordsFrom_single _ _ noQuote]
    rfl
  | double inside =>
    rw [List.append_assoc, List.cons_append, wordsFrom_doubleQuote, wordsFrom_inside _ _ inside,
      List.singleton_append, wordsFrom.eq_def]
    rfl

theorem wordsFrom_word (word : Option (List Char)) (isWord : Word cs w) :
    wordsFrom .none word (cs ++ rest) = wordsFrom .none (some (word.getD [] ++ w)) rest := by
  induction isWord generalizing word with
  | piece piece => exact wordsFrom_piece rest word piece
  | join piece _ ih =>
    rw [List.append_assoc, wordsFrom_piece _ word piece, ih, Option.getD_some, List.append_assoc]

end

/-! What a command spells is what is read -/

theorem map_nil_append (words : Except SplitFault (List (List Char))) :
    words.map ([] ++ ·) = words := by
  cases words <;> rfl

theorem map_map_append {words : Except SplitFault (List (List Char))}
    (front back : List (List Char)) :
    (words.map (back ++ ·)).map (front ++ ·) = words.map (front ++ back ++ ·) := by
  cases words with
  | error fault => rfl
  | ok words => exact congrArg Except.ok (List.append_assoc front back words).symm

theorem wordsFrom_isBlank {cs : List Char} (blank : IsBlank cs) (rest : List Char) :
    wordsFrom .none none (cs ++ rest) = wordsFrom .none none rest := by
  induction cs with
  | nil => rfl
  | cons c cs ih =>
    have ⟨first, others⟩ := List.forall_mem_cons.mp blank
    rw [List.cons_append, wordsFrom_blank none _ first, ih others]
    exact map_nil_append _

theorem wordsFrom_gap {gap : List Char} (blank : IsBlank gap) (nonempty : gap ≠ [])
    (word rest : List Char) :
    wordsFrom .none (some word) (gap ++ rest) = (wordsFrom .none none rest).map (word :: ·) := by
  cases gap with
  | nil => exact absurd rfl nonempty
  | cons c cs =>
    have ⟨first, others⟩ := List.forall_mem_cons.mp blank
    rw [List.cons_append, wordsFrom_blank _ _ first, wordsFrom_isBlank others]
    rfl

/-- After a row its last word goes on, and the words before it are settled. -/
theorem Row.wordsFrom {cs : List Char} {ws : List (List Char)} (row : Row cs ws) :
    ∃ settled last, settled ++ [last] = ws ∧ ∀ rest, Command.wordsFrom .none none (cs ++ rest) =
      (Command.wordsFrom .none (some last) rest).map (settled ++ ·) := by
  induction row with
  | @word cs w isWord =>
    exact ⟨[], w, rfl, fun rest =>
      (wordsFrom_word rest none isWord).trans (map_nil_append _).symm⟩
  | @next cs w gap more ws isWord blank nonempty _ ih =>
    obtain ⟨settled, last, rfl, reads⟩ := ih
    refine ⟨w :: settled, last, rfl, fun rest => ?_⟩
    rw [List.append_assoc, List.append_assoc, wordsFrom_word _ none isWord,
      wordsFrom_gap blank nonempty, reads]
    exact map_map_append [w] settled

theorem Spells.wordsFrom {cs : List Char} {ws : List (List Char)} (spells : Spells cs ws) :
    ∃ settled word, settled ++ Option.toList word = ws ∧
      ∀ rest, Command.wordsFrom .none none (cs ++ rest) =
        (Command.wordsFrom .none word rest).map (settled ++ ·) := by
  cases spells with
  | nothing blank =>
    exact ⟨[], none, rfl, fun rest =>
      (wordsFrom_isBlank blank rest).trans (map_nil_append _).symm⟩
  | @row front cs back ws blank row blank' =>
    obtain ⟨settled, last, rfl, reads⟩ := row.wordsFrom
    cases back with
    | nil =>
      refine ⟨settled, some last, rfl, fun rest => ?_⟩
      rw [List.append_nil, List.append_assoc, wordsFrom_isBlank blank, reads]
    | cons c back =>
      refine ⟨settled ++ [last], none, List.append_nil _, fun rest => ?_⟩
      rw [List.append_assoc, List.append_assoc, wordsFrom_isBlank blank, reads,
        wordsFrom_gap blank' (List.cons_ne_nil c back)]
      exact map_map_append settled [last]

theorem wordsFrom_of_spells {cs : List Char} {ws : List (List Char)} (spells : Spells cs ws) :
    wordsFrom .none none cs = .ok ws := by
  obtain ⟨settled, word, rfl, reads⟩ := spells.wordsFrom
  have whole := reads []
  rwa [List.append_nil] at whole

theorem Unfinished.wordsFrom {cs : List Char} {fault : SplitFault}
    (unfinished : Unfinished cs fault) (word : Option (List Char)) : Command.wordsFrom .none word cs = .error fault := by
  cases unfinished with
  | @single cs noQuote =>
    rw [wordsFrom_singleQuote, ← List.append_nil cs, wordsFrom_single _ _ noQuote]
    rfl
  | @double cs w back inside last =>
    rw [List.cons_append, wordsFrom_doubleQuote, wordsFrom_inside _ _ inside]
    rcases List.mem_pair.mp last with rfl | rfl <;> rfl
  | backslash => rfl

theorem wordsFrom_of_unfinished {front back : List Char} {ws : List (List Char)}
    {fault : SplitFault} (spells : Spells front ws) (unfinished : Unfinished back fault) :
    wordsFrom .none none (front ++ back) = .error fault := by
  obtain ⟨settled, word, rfl, reads⟩ := spells.wordsFrom
  rw [reads, unfinished.wordsFrom]
  rfl

/-! Every command spells words as far as it is finished -/

theorem Spells.isBlank {cs : List Char} (spells : Spells cs []) : IsBlank cs := by
  cases spells with
  | nothing blank => exact blank
  | row _ row => cases row

theorem Spells.blank {c : Char} {cs : List Char} {ws : List (List Char)}
    (first : Text.isWhiteSpace c = true) (spells : Spells cs ws) : Spells (c :: cs) ws := by
  cases spells with
  | nothing blank => exact .nothing (List.forall_mem_cons.mpr ⟨first, blank⟩)
  | row blank row blank' => exact .row (List.forall_mem_cons.mpr ⟨first, blank⟩) row blank'

theorem Row.spells {cs back : List Char} {ws : List (List Char)} (row : Row cs ws)
    (blank : IsBlank back) : Spells (cs ++ back) ws := by
  have nothing : IsBlank [] := nofun
  exact Spells.row nothing row blank

/-- A piece in front of a text is a word of its own, or a part of the first word. -/
theorem Spells.piece {cs w rest : List Char} {ws : List (List Char)} (piece : Piece cs w)
    (spells : Spells rest ws) : ∃ ws', Spells (cs ++ rest) ws' := by
  cases spells with
  | nothing blank => exact ⟨_, (Row.word (.piece piece)).spells blank⟩
  | @row front cs' back ws blank row blank' =>
    cases front with
    | nil =>
      cases row with
      | word isWord =>
        have joined := (Row.word (.join piece isWord)).spells blank'
        exact ⟨_, by simpa only [List.nil_append, List.append_assoc] using joined⟩
      | next isWord gap nonempty row =>
        have joined := (Row.next (.join piece isWord) gap nonempty row).spells blank'
        exact ⟨_, by simpa only [List.nil_append, List.append_assoc] using joined⟩
    | cons c front =>
      have beside :=
        (Row.next (.piece piece) blank (List.cons_ne_nil c front) row).spells blank'
      exact ⟨_, by simpa only [List.append_assoc] using beside⟩

theorem inside_cases : ∀ cs : List Char,
    (∃ inside w rest, cs = inside ++ '"' :: rest ∧ Inside inside w) ∨
      ∃ inside w back, cs = inside ++ back ∧ Inside inside w ∧ back ∈ [[], ['\\']]
  | [] => .inr ⟨[], [], [], rfl, .nil, by decide⟩
  | c :: cs => by
    by_cases quote : c = '"'
    · exact .inl ⟨[], [], cs, by rw [quote, List.nil_append], .nil⟩
    by_cases backslash : c = '\\'
    · subst backslash
      cases cs with
      | nil => exact .inr ⟨[], [], ['\\'], rfl, .nil, by decide⟩
      | cons d cs =>
        have begins {inside w : List Char} (more : Inside inside w) :
            ∃ w', Inside ('\\' :: d :: inside) w' := by
          by_cases special : d = '"' ∨ d = '\\'
          · exact ⟨_, .escape special more⟩
          · exact ⟨_, .pair (not_or.mp special).1 (not_or.mp special).2 more⟩
        rcases inside_cases cs with
          ⟨inside, w, rest, rfl, more⟩ | ⟨inside, w, back, rfl, more, last⟩
        · obtain ⟨w', longer⟩ := begins more
          exact .inl ⟨_, w', rest, rfl, longer⟩
        · obtain ⟨w', longer⟩ := begins more
          exact .inr ⟨_, w', back, rfl, longer, last⟩
    · rcases inside_cases cs with ⟨inside, w, rest, rfl, more⟩ | ⟨inside, w, back, rfl, more, last⟩
      · exact .inl ⟨c :: inside, c :: w, rest, rfl, .plain quote backslash more⟩
      · exact .inr ⟨c :: inside, c :: w, back, rfl, .plain quote backslash more, last⟩

theorem begins_cases (c : Char) (cs : List Char) :
    Text.isWhiteSpace c = true ∨
      (∃ piece w rest, c :: cs = piece ++ rest ∧ Piece piece w) ∨
      ∃ fault, Unfinished (c :: cs) fault := by
  by_cases blank : Text.isWhiteSpace c = true
  · exact .inl blank
  refine .inr ?_
  by_cases single : c = '\''
  · subst single
    by_cases closes : '\'' ∈ cs
    · obtain ⟨inside, rest, rfl, noQuote⟩ := List.eq_append_cons_of_mem closes
      exact .inl ⟨_, inside, rest, by simp, .single noQuote⟩
    · exact .inr ⟨_, .single closes⟩
  by_cases double : c = '"'
  · subst double
    rcases inside_cases cs with ⟨inside, w, rest, rfl, closes⟩ | ⟨inside, w, back, rfl, more, last⟩
    · exact .inl ⟨_, w, rest, by simp, .double closes⟩
    · exact .inr ⟨_, .double more last⟩
  by_cases backslash : c = '\\'
  · subst backslash
    cases cs with
    | nil => exact .inr ⟨_, .backslash⟩
    | cons d rest => exact .inl ⟨['\\', d], [d], rest, rfl, .escaped d⟩
  · exact .inl ⟨[c], [c], cs, rfl, .bare (Bool.eq_false_iff.mpr blank)
      (by simp [single, double, backslash])⟩

theorem exists_spells (cs : List Char) : ∃ front back ws, cs = front ++ back ∧ Spells front ws ∧
    (back = [] ∨ ∃ fault, Unfinished back fault) := by
  -- the first character or piece is taken away, so that what is left is shorter
  induction size : cs.length using Nat.strongRecOn generalizing cs with
  | ind n ih =>
    cases cs with
    | nil => exact ⟨[], [], [], rfl, .nothing nofun, .inl rfl⟩
    | cons c cs =>
      rcases begins_cases c cs with blank | ⟨piece, w, rest, same, isPiece⟩ | unfinished
      · obtain ⟨front, back, ws, rfl, spells, last⟩ :=
          ih cs.length (by rw [← size]; exact Nat.lt_succ_self _) cs rfl
        exact ⟨c :: front, back, ws, rfl, spells.blank blank, last⟩
      · have shorter : rest.length < n := by
          rw [← size, same, List.length_append]
          have : 0 < piece.length := by cases isPiece <;> simp
          omega
        obtain ⟨front, back, ws, rfl, spells, last⟩ := ih rest.length shorter rest rfl
        obtain ⟨ws', longer⟩ := spells.piece isPiece
        exact ⟨piece ++ front, back, ws', by rw [same, List.append_assoc], longer, last⟩
      · exact ⟨[], c :: cs, [], rfl, .nothing nofun, .inr unfinished⟩

/-! Quoting -/

inductive Style where
  | backslash
  | single
  | double
  deriving DecidableEq, Repr

/-- A word in quotes, or with a backslash before each character. An empty word is put between
quotes in any style, and an apostrophe stands outside of single quotes with a backslash. -/
def Style.quote : Style → List Char → List Char
  | backslash, [] => ['\'', '\'']
  | backslash, c :: cs => (c :: cs).flatMap fun c => ['\\', c]
  | single, cs =>
    '\'' :: cs.flatMap (fun c => if c = '\'' then ['\'', '\\', '\'', '\''] else [c]) ++ ['\'']
  | double, cs =>
    '"' :: cs.flatMap (fun c => if c = '"' ∨ c = '\\' then ['\\', c] else [c]) ++ ['"']

theorem word_backslashes (c : Char) (cs : List Char) :
    Word ((c :: cs).flatMap fun c => ['\\', c]) (c :: cs) := by
  induction cs generalizing c with
  | nil => exact .piece (.escaped c)
  | cons d cs ih => exact .join (.escaped c) (ih d)

/-- Single quotes around a text, the characters in `open_` being quoted already. -/
theorem word_singles (open_ : List Char) (noQuote : '\'' ∉ open_) (cs : List Char) :
    Word ('\'' :: (open_ ++ cs.flatMap fun c =>
        if c = '\'' then ['\'', '\\', '\'', '\''] else [c]) ++ ['\'']) (open_ ++ cs) := by
  induction cs generalizing open_ with
  | nil => exact .piece (.single (by simpa using noQuote))
  | cons c cs ih =>
    by_cases quote : c = '\''
    · subst quote
      -- what is open is closed, the apostrophe has a backslash, and the rest is opened again
      have closed := Word.join (.single noQuote) (.join (.escaped '\'') (ih [] nofun))
      simpa using closed
    · have longer := ih (open_ ++ [c]) (by simp [noQuote, Ne.symm quote])
      simpa [quote] using longer

theorem inside_doubles (cs : List Char) :
    Inside (cs.flatMap fun c => if c = '"' ∨ c = '\\' then ['\\', c] else [c]) cs := by
  induction cs with
  | nil => exact .nil
  | cons c cs ih =>
    by_cases special : c = '"' ∨ c = '\\'
    · simpa [special] using Inside.escape special ih
    · have ⟨noQuote, noBackslash⟩ := not_or.mp special
      simpa [noQuote, noBackslash] using Inside.plain noQuote noBackslash ih

theorem word_quote (style : Style) (w : List Char) : Word (style.quote w) w := by
  cases style with
  | backslash =>
    cases w with
    | nil =>
      have noQuote : '\'' ∉ ([] : List Char) := nofun
      exact .piece (.single noQuote)
    | cons c cs => exact word_backslashes c cs
  | single => exact word_singles [] nofun w
  | double => exact .piece (.double (inside_doubles w))

def quoteAll (quoted : List (Style × String)) : String :=
  String.ofList ([' '].intercalate (quoted.map fun (style, w) => style.quote w.toList))

theorem row_quoteAll (first : Style × String) (rest : List (Style × String)) :
    Row (quoteAll (first :: rest)).toList ((first :: rest).map (·.2.toList)) := by
  rw [quoteAll, String.toList_ofList]
  induction rest generalizing first with
  | nil => simpa using Row.word (word_quote first.1 first.2.toList)
  | cons next rest ih =>
    have blank : IsBlank [' '] := by simp [IsBlank, Text.isWhiteSpace]
    have row := Row.next (word_quote first.1 first.2.toList) blank nofun (ih next)
    simpa [List.intercalate] using row

/-! Splitting -/

theorem split_of_spells {command : String} {ws : List (List Char)}
    (spells : Spells command.toList ws) :
    split command = if ws = [] then .error .noWord else .ok (ws.map String.ofList) := by
  rw [split, wordsFrom_of_spells spells]
  cases ws <;> rfl

theorem split_of_unfinished {command : String} {front back : List Char} {ws : List (List Char)}
    {fault : SplitFault} (same : command.toList = front ++ back) (spells : Spells front ws)
    (unfinished : Unfinished back fault) : split command = .error fault := by
  rw [split, same, wordsFrom_of_unfinished spells unfinished]

theorem split_of_fails {command : String} {fault : SplitFault}
    (fails : Fails command.toList fault) : split command = .error fault := by
  generalize same : command.toList = cs at fails
  cases fails with
  | blank blank =>
    have spells : Spells command.toList [] := same ▸ Spells.nothing blank
    exact split_of_spells spells
  | unfinished spells unfinished => exact split_of_unfinished same spells unfinished

theorem split_cases (command : String) :
    (∃ words, words ≠ [] ∧ Spells command.toList (words.map String.toList) ∧
      split command = .ok words) ∨
    ∃ fault, Fails command.toList fault ∧ split command = .error fault := by
  obtain ⟨front, back, ws, same, spells, rfl | ⟨fault, unfinished⟩⟩ := exists_spells command.toList
  · rw [List.append_nil] at same
    subst same
    cases ws with
    | nil => exact .inr ⟨.noWord, .blank spells.isBlank, split_of_fails (.blank spells.isBlank)⟩
    | cons w ws =>
      refine .inl ⟨(w :: ws).map String.ofList, by simp, ?_, split_of_spells spells⟩
      rw [List.map_map]
      simpa [Function.comp_def] using spells
  · have fails : Fails command.toList fault := same ▸ .unfinished spells unfinished
    exact .inr ⟨fault, fails, split_of_fails fails⟩

/-- A command is split into words exactly if it spells them, and refused with a fault exactly if
that is how it fails, so that each command does one or the other. Words that are quoted, each in a
style of its own, are split into themselves. -/
theorem split_exact (command : String) :
    (∀ words, split command = .ok words ↔
      words ≠ [] ∧ Spells command.toList (words.map String.toList)) ∧
    (∀ fault, split command = .error fault ↔ Fails command.toList fault) ∧
    (∀ failure, Session.buildWords command = .error failure ↔
      ∃ fault, Fails command.toList fault ∧ failure = .invalidInput (.command command fault)) ∧
    ∀ first rest, split (quoteAll (first :: rest)) = .ok ((first :: rest).map (·.2)) := by
  have faults (fault : SplitFault) : split command = .error fault ↔ Fails command.toList fault := by
    refine ⟨fun failed => ?_, split_of_fails⟩
    obtain ⟨_, _, _, read⟩ | ⟨_, fails, failed'⟩ := split_cases command
    · cases failed.symm.trans read
    · cases failed.symm.trans failed'
      exact fails
  refine ⟨fun words => ⟨fun read => ?_, fun ⟨nonempty, spells⟩ => ?_⟩, faults, fun failure => ?_,
    fun first rest => ?_⟩
  · obtain ⟨_, nonempty, spells, read'⟩ | ⟨_, _, failed⟩ := split_cases command
    · cases read.symm.trans read'
      exact ⟨nonempty, spells⟩
    · cases read.symm.trans failed
  · rw [split_of_spells spells, if_neg (by simpa using nonempty), List.map_map]
    simp [Function.comp_def]
  · simp only [← faults, Session.buildWords]
    cases split command <;> simp [eq_comm]
  · have nothing : IsBlank [] := nofun
    have spelled := (row_quoteAll first rest).spells nothing
    rw [List.append_nil] at spelled
    rw [split_of_spells spelled, if_neg (by simp), List.map_map]
    simp [Function.comp_def]

end CostWatch.Command

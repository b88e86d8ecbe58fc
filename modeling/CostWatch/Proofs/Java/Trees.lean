import CostWatch.Proofs.Grammar.Readings
import CostWatch.Proofs.Java.Extents

/-!
Trees of Java texts.

The trees that a text is read as are derived from it. So their tokens stand in the text one after
the other, and the productions of methods and constructors have the name before the body.
-/

set_option autoImplicit false

namespace CostWatch.Java

open Grammar

/-! Places -/

/-- A place is one of a text: what is before it has been passed, and the rest is left. -/
def Place.IsOf (text : String) (place : Place) : Prop :=
  ∃ front, text = front ++ String.ofList place.rest ∧ place.mark = Mark.ofText front

section

variable {text : String} {place next : Place} {token : Token} {admitted bit : Nat}

theorem Place.IsOf.mark (isOf : place.IsOf text) : place.mark.IsOf text := by
  obtain ⟨front, split, mark⟩ := isOf
  exact ⟨front, _, split, mark⟩

theorem Place.IsOf.eq_of_byte_eq (isOf : place.IsOf text) (isOf' : next.IsOf text)
    (same : place.mark.byte = next.mark.byte) : place = next := by
  have marks := isOf.mark.eq_of_byte_eq isOf'.mark same
  obtain ⟨front, split, mark⟩ := isOf
  obtain ⟨front', split', mark'⟩ := isOf'
  have sizes : front.utf8ByteSize = front'.utf8ByteSize := by
    rw [← Mark.byte_ofText, ← Mark.byte_ofText, ← mark, ← mark', same]
  obtain ⟨between, rfl, rest⟩ := exists_append_of_size_le (split.symm.trans split')
    (Nat.le_of_eq sizes)
  rw [String.utf8ByteSize_append] at sizes
  have empty : between = "" := String.utf8ByteSize_eq_zero_iff.mp (by omega)
  rw [empty, String.empty_append, String.ofList_inj] at rest
  cases place
  cases next
  simp_all

theorem isOf_beginning (text : String) : (beginning text).IsOf text := by
  rw [beginning]
  split
  · next cs marked =>
    refine ⟨"\uFEFF", ?_, rfl⟩
    rw [← String.toList_inj, String.toList_append, marked]
    exact congrArg ('\uFEFF' :: ·) String.toList_ofList.symm
  · refine ⟨"", ?_, rfl⟩
    rw [String.ofList_toList, String.empty_append]

theorem Place.IsOf.after (isOf : place.IsOf text) (count : Nat) :
    (place.after count).IsOf text ∧ place.mark.byte ≤ (place.after count).mark.byte ∧
      Stretch.Holds text (String.ofList (place.rest.take count))
        ⟨place.mark, (place.after count).mark⟩ := by
  obtain ⟨front, split, mark⟩ := isOf
  have passed : (place.after count).mark =
      Mark.ofText (front ++ String.ofList (place.rest.take count)) := by
    rw [Mark.ofText_append, String.toList_ofList, ← mark, Place.after]
  have whole : text = front ++ String.ofList (place.rest.take count) ++
      String.ofList (place.rest.drop count) := by
    rw [split, String.append_assoc, ← String.ofList_append, List.take_append_drop]
  have holds : Stretch.Holds text (String.ofList (place.rest.take count))
      ⟨place.mark, (place.after count).mark⟩ := by
    refine ⟨front, _, whole, ?_⟩
    rw [mark, passed]
  exact ⟨⟨_, whole, passed⟩, holds.le, holds⟩

theorem Place.IsOf.skipBlanks (isOf : place.IsOf text) (rounds : Nat) :
    (Java.skipBlanks rounds place).IsOf text ∧
      place.mark.byte ≤ (Java.skipBlanks rounds place).mark.byte := by
  induction rounds generalizing place with
  | zero => exact ⟨isOf, Nat.le_refl _⟩
  | succ rounds ih =>
    have ⟨spaced, later, _⟩ := isOf.after (place.rest.takeWhile Lexeme.isSpace).length
    rw [Java.skipBlanks]
    split
    · exact ⟨spaced, later⟩
    · next n _ =>
      have ⟨passed, later', _⟩ := spaced.after n
      have ⟨isOf', later''⟩ := ih passed
      exact ⟨isOf', by omega⟩

/-- A token comes after a place: it stands in the text there or further on, and the next place is
behind it. -/
structure Follows (text : String) (place : Place) (token : Token) (next : Place) : Prop where
  isOf : next.IsOf text
  start : place.mark.byte ≤ token.start.byte
  stop : token.stop = next.mark
  holds : token.stretch.Holds text token.text

theorem Follows.of_later {later : Place} (follows : Follows text later token next)
    (isLater : place.mark.byte ≤ later.mark.byte) : Follows text place token next :=
  { follows with start := Nat.le_trans isLater follows.start }

theorem follows_tokenOf {found : List Found} (isOf : place.IsOf text)
    (isToken : tokenOf place found = .token bit token next) : Follows text place token next := by
  rw [tokenOf] at isToken
  split at isToken
  · cases isToken
  · next n _ =>
    cases isToken
    have ⟨isOf', _, holds⟩ := isOf.after n
    exact ⟨isOf', Nat.le_refl _, rfl, holds⟩

theorem follows_nextInBlock {rounds : Nat} (isOf : place.IsOf text)
    (isToken : nextInBlock admitted rounds place = .token bit token next) :
    Follows text place token next := by
  induction rounds generalizing place with
  | zero => cases isToken
  | succ rounds ih =>
    rw [nextInBlock] at isToken
    split at isToken
    · exact follows_tokenOf isOf isToken
    · next n _ =>
      split at isToken
      · have ⟨isOf', later, _⟩ := isOf.after n
        exact (ih isOf' isToken).of_later later
      · exact follows_tokenOf isOf isToken

theorem follows_next {rounds : Nat} (isOf : place.IsOf text)
    (isToken : Java.next rounds admitted place = .token bit token next) :
    Follows text place token next := by
  rw [Java.next] at isToken
  split at isToken
  · exact follows_tokenOf isOf isToken
  · split at isToken
    · exact follows_nextInBlock isOf isToken
    · have ⟨isOf', later⟩ := isOf.skipBlanks rounds
      rw [nextInCode] at isToken
      split at isToken
      · cases isToken
      · exact (follows_tokenOf isOf' isToken).of_later later

end

/-! The grammar -/

theorem numbered_language : language.Numbered := by
  unfold Language.Numbered
  decide +kernel

theorem grounded_reader (text : String) (length : Nat) :
    (reader length).Grounded (Place.IsOf text) where
  tables := ⟨_, rfl⟩
  numbered := numbered_language
  further _ _ _ _ _ isOf isToken := (follows_next isOf isToken).isOf
  apart _ _ isOf isOf' same := isOf.eq_of_byte_eq isOf' same

theorem partsOf_eq {length head : Nat} {name : Part} (isName : language.names[head]? = some name)
    (parts : List JavaTree) : (reader length).partsOf head parts =
      if Part.lists.contains name then parts else [.node name parts] := by
  have isName : (reader length).language.names[head]? = some name := isName
  rw [Reader.partsOf, isName]
  rfl

/-- What the name is in that a phrase declares: a phrase before the body, or a token. -/
def leadOf? : Part → Option Symbol
  | .method => some (.inr Part.methodHeader.number)
  | .constructor => some (.inr Part.constructorHead.number)
  | .compactConstructor => some (.inl nameBit)
  | _ => none

theorem symbols_of_lead {name : Part} {lead : Symbol} (isLead : leadOf? name = some lead) :
    ∀ production ∈ language.productionsOf name, production.symbols.head? = some lead ∨
      production.symbols.take 2 = [.inr Part.modifiers.number, lead] := by
  unfold leadOf? at isLead
  split at isLead
  · obtain rfl := Option.some.inj isLead
    decide +kernel
  · obtain rfl := Option.some.inj isLead
    decide +kernel
  · obtain rfl := Option.some.inj isLead
    decide +kernel
  · cases isLead

section

variable {text : String} {length : Nat} {place next : Place} {name : Part} {symbols : List Symbol}
  {trees parts : List JavaTree}

theorem exists_token_of_derives {bit : Nat}
    (derives : (reader length).Derives place (.inl bit :: symbols) trees next) :
    ∃ token more, trees = .leaf token :: more := by
  cases derives with
  | token _ _ => exact ⟨_, _, rfl⟩

theorem exists_phrase_of_derives
    (derives : (reader length).Derives place (.inr name.number :: symbols) trees next)
    (isName : name ∈ Part.all) (noList : Part.lists.contains name = false) :
    ∃ parts more between, trees = .node name parts :: more ∧
      (reader length).Derives between symbols more next := by
  generalize isHead : name.number = head at derives
  cases derives with
  | phrase _ _ rest =>
    have found := numbered_language name isName
    rw [show language.number name = _ from isHead] at found
    rw [partsOf_eq found, noList]
    exact ⟨_, _, _, rfl, rest⟩

theorem partsNamed?_append {names : List Part} {front back : List JavaTree}
    (none : partsNamed? names front = none) :
    partsNamed? names (front ++ back) = partsNamed? names back := by
  induction front with
  | nil => rfl
  | cons tree rest ih =>
    cases tree with
    | leaf token => exact ih none
    | node name own =>
      rw [partsNamed?] at none
      rw [List.cons_append, partsNamed?]
      split at none
      · cases none
      · next other =>
        rw [if_neg other]
        exact ih none

theorem exists_node_of_partsNamed? {names : List Part} {body : List JavaTree}
    (found : partsNamed? names parts = some body) :
    ∃ before name after, parts = before ++ .node name body :: after := by
  induction parts with
  | nil => cases found
  | cons tree rest ih =>
    have further (found : partsNamed? names rest = some body) :
        ∃ before name after, tree :: rest = before ++ .node name body :: after := by
      obtain ⟨before, name, after, rfl⟩ := ih found
      exact ⟨tree :: before, name, after, rfl⟩
    cases tree with
    | leaf token => exact further found
    | node name own =>
      rw [partsNamed?] at found
      split at found
      · obtain rfl := Option.some.inj found
        exact ⟨[], name, rest, rfl⟩
      · exact further found

theorem namedFirst_of_front {front back : List JavaTree}
    (noBody : partsNamed? [.block, .constructorBody] front = none)
    (named : declaredName? name (front ++ back) = declaredName? name front) :
    Phrase.NamedFirst (name, front ++ back) := by
  intro called body isCalled isBody
  rw [partsNamed?_append noBody] at isBody
  obtain ⟨before, kind, after, rfl⟩ := exists_node_of_partsNamed? isBody
  refine ⟨front ++ before, kind, after, (List.append_assoc ..).symm, ?_⟩
  rw [tokensOf_append]
  exact List.mem_append_left _ (mem_of_declaredName? (named.symm.trans isCalled))

def IsModified (front : List JavaTree) : Prop :=
  front = [] ∨ ∃ own, front = [.node .modifiers own]

theorem exists_lead_of_derives {lead : Symbol} {production : Production}
    (isLead : leadOf? name = some lead) (member : production ∈ language.productionsOf name)
    (derives : (reader length).Derives place production.symbols parts next) :
    ∃ front rest between symbols, parts = front ++ rest ∧ IsModified front ∧
      (reader length).Derives between (lead :: symbols) rest next := by
  rcases symbols_of_lead isLead production member with first | second
  · obtain ⟨symbols, all⟩ := List.head?_eq_some_iff.mp first
    rw [all] at derives
    exact ⟨[], parts, place, symbols, rfl, .inl rfl, derives⟩
  · have all := List.take_append_drop 2 production.symbols
    rw [second] at all
    rw [← all] at derives
    obtain ⟨own, rest, between, rfl, further⟩ :=
      exists_phrase_of_derives derives (by decide) (by decide)
    exact ⟨[.node .modifiers own], rest, between, _, rfl, .inr ⟨own, rfl⟩, further⟩

/-- The name of a declaration is before its body, whichever production it has been read by. -/
theorem namedFirst_of_derives {production : Production}
    (member : production ∈ language.productionsOf name)
    (derives : (reader length).Derives place production.symbols parts next) :
    Phrase.NamedFirst (name, parts) := by
  cases isLead : leadOf? name with
  | none =>
    intro called body isCalled
    dsimp only at isCalled
    unfold declaredName? at isCalled
    split at isCalled
    · cases isLead
    · cases isLead
    · cases isLead
    · cases isCalled
  | some lead =>
    obtain ⟨front, rest, between, symbols, rfl, modified, derives⟩ :=
      exists_lead_of_derives isLead member derives
    unfold leadOf? at isLead
    -- what the name is in is known, so it is found there whether there are modifiers or not
    split at isLead
    · obtain rfl := Option.some.inj isLead
      obtain ⟨own, more, _, rfl, _⟩ := exists_phrase_of_derives derives (by decide) (by decide)
      rw [List.append_cons]
      apply namedFirst_of_front <;> rcases modified with rfl | ⟨_, rfl⟩ <;> rfl
    · obtain rfl := Option.some.inj isLead
      obtain ⟨own, more, _, rfl, _⟩ := exists_phrase_of_derives derives (by decide) (by decide)
      rw [List.append_cons]
      apply namedFirst_of_front <;> rcases modified with rfl | ⟨_, rfl⟩ <;> rfl
    · obtain rfl := Option.some.inj isLead
      obtain ⟨token, more, rfl⟩ := exists_token_of_derives derives
      rw [List.append_cons]
      apply namedFirst_of_front <;> rcases modified with rfl | ⟨_, rfl⟩ <;> rfl
    · cases isLead

end

/-! Trees between places -/

/-- Trees have been read from a text between two of its places. -/
structure Between (text : String) (place : Place) (trees : List JavaTree) (after : Place) :
    Prop where
  isOf : after.IsOf text
  placed : Placed text trees
  le : place.mark.byte ≤ after.mark.byte
  within : ∀ token ∈ tokensOf trees,
    place.mark.byte ≤ token.start.byte ∧ token.stop.byte ≤ after.mark.byte

namespace Between

variable {text : String} {place next after : Place} {trees others : List JavaTree}

theorem nothing (isOf : place.IsOf text) : Between text place [] place :=
  ⟨isOf, ⟨.nil, nofun, nofun⟩, Nat.le_refl _, nofun⟩

theorem token {token : Token} (follows : Follows text place token next) :
    Between text place [.leaf token] next := by
  have ⟨isOf, start, stop, holds⟩ := follows
  have ends : token.stop.byte = next.mark.byte := congrArg Mark.byte stop
  have inside : token.start.byte ≤ token.stop.byte := holds.le
  refine ⟨isOf, ⟨List.pairwise_singleton _ _, List.forall_mem_singleton.mpr holds, nofun⟩, ?_,
    List.forall_mem_singleton.mpr ⟨start, ?_⟩⟩ <;> omega

theorem node {name : Part} (between : Between text place trees next)
    (named : Phrase.NamedFirst (name, trees)) : Between text place [.node name trees] next := by
  have ⟨isOf, ⟨inOrder, inText, others⟩, le, within⟩ := between
  have tokens : tokensOf [.node name trees] = tokensOf trees := List.append_nil _
  have phrases : phrasesOf [.node name trees] = (name, trees) :: phrasesOf trees :=
    List.append_nil _
  refine ⟨isOf, ⟨?_, ?_, ?_⟩, le, ?_⟩
  · rw [tokens]
    exact inOrder
  · rw [tokens]
    exact inText
  · rw [phrases, List.forall_mem_cons]
    exact ⟨named, others⟩
  · rw [tokens]
    exact within

theorem append (first : Between text place trees next) (second : Between text next others after) :
    Between text place (trees ++ others) after := by
  have le := first.le
  have le' := second.le
  refine ⟨second.isOf, ⟨?_, ?_, ?_⟩, by omega, ?_⟩
  · rw [tokensOf_append, List.pairwise_append]
    refine ⟨first.placed.inOrder, second.placed.inOrder, ?_⟩
    intro token member other member'
    have ends := (first.within token member).2
    have starts := (second.within other member').1
    omega
  · rw [tokensOf_append, List.forall_mem_append]
    exact ⟨first.placed.inText, second.placed.inText⟩
  · rw [phrasesOf_append, List.forall_mem_append]
    exact ⟨first.placed.named, second.placed.named⟩
  · rw [tokensOf_append, List.forall_mem_append]
    constructor
    · intro token member
      have ⟨starts, ends⟩ := first.within token member
      omega
    · intro token member
      have ⟨starts, ends⟩ := second.within token member
      omega

end Between

theorem between_of_derives {text : String} {length : Nat} {place after : Place}
    {symbols : List Symbol} {trees : List JavaTree}
    (derives : (reader length).Derives place symbols trees after) (isOf : place.IsOf text) :
    Between text place trees after := by
  induction derives with
  | nothing _ => exact .nothing isOf
  | token isNext _ ih =>
    have follows := follows_next isOf isNext
    exact (Between.token follows).append (ih follows.isOf)
  | @phrase _ _ _ production _ _ _ has inner _ ih ih' =>
    obtain ⟨name, found, member⟩ := Language.head_of_has numbered_language has
    have parts := ih isOf
    have others := ih' parts.isOf
    rw [partsOf_eq found]
    -- a list leaves its parts to what is around it; all else becomes a node
    split
    · exact parts.append others
    · exact (parts.node (namedFirst_of_derives member inner)).append others

/-- The trees of a text stand in it, one after the other, with names before bodies. -/
theorem places_parse : Places parse := by
  intro text trees parsed
  have isOf := isOf_beginning text
  rw [parse] at parsed
  cases read : (reader (beginning text).rest.length).read
      (1000 * ((beginning text).rest.length + 1)) (beginning text) with
  | error byte =>
    rw [read] at parsed
    cases parsed
  | ok found =>
    rw [read] at parsed
    obtain rfl := Except.ok.inj parsed
    rcases Reader.derives_of_read (grounded_reader text _) isOf read with rfl | ⟨after, derives⟩
    · exact (Between.nothing isOf).placed
    · exact (between_of_derives derives isOf).placed

/-- The declarations of a text come in the order in which they begin and lie apart or inside each
other, one for each phrase that has the name of a method or a constructor. That is so whatever the
parser is, as long as its trees stand in the text that it read, and so with the parser here. -/
theorem extract_arranged {text : String} {ds : List Declaration} :
    (∀ parse, Places parse → extractBy parse text = .ok ds →
        ∃ trees entries, parse text = .ok trees ∧ Arranged text trees ds entries) ∧
      (extract text = .ok ds →
        ∃ trees entries, Java.parse text = .ok trees ∧ Arranged text trees ds entries) := by
  constructor
  · intro parse places extracted
    exact arranged_of_extractBy places extracted
  · intro extracted
    exact arranged_of_extractBy places_parse extracted

def sampleText : String := "void f()\x7bnew B()\x7bvoid g()\x7b\x7d\x7d;\x7d"

theorem extract_arranged_nested :
    Places parse ∧ ∃ ds, extract sampleText = .ok ds ∧ extractBy parse sampleText = .ok ds ∧
      ds.map (fun d => (d.name, d.body)) = [("f", some ⟨8, 30⟩), ("g", some ⟨25, 27⟩)] ∧
      ∃ trees entries, parse sampleText = .ok trees ∧ Arranged sampleText trees ds entries := by
  have found : (extract sampleText).toOption.map (·.map fun d => (d.name, d.body)) =
      some [("f", some ⟨8, 30⟩), ("g", some ⟨25, 27⟩)] := by
    decide +kernel
  cases extracted : extract sampleText with
  | error fault =>
    rw [extracted] at found
    cases found
  | ok ds =>
    rw [extracted] at found
    exact ⟨places_parse, ds, rfl, extracted, Option.some.inj found,
      extract_arranged.1 parse places_parse extracted⟩

end CostWatch.Java

import CostWatch.Proofs.Java.Contexts
import CostWatch.Proofs.Java.Stretches

/-!
Where the declarations of a text lie.

Each phrase that has the name of a method or a constructor makes one declaration, which comes before
those of the phrases inside it. As the tokens of a text follow one another, so do the phrases that
are not inside each other.
-/

set_option autoImplicit false

namespace CostWatch.Java

open Grammar

/-! Phrases -/

abbrev Phrase := Part × List JavaTree

mutual

/-- The phrases of a tree, each of them before the ones inside it. -/
def Tree.phrases : JavaTree → List Phrase
  | .leaf _ => []
  | .node name parts => (name, parts) :: phrasesOf parts

def phrasesOf : List JavaTree → List Phrase
  | [] => []
  | tree :: rest => Tree.phrases tree ++ phrasesOf rest

end

def Phrase.declares (phrase : Phrase) : Bool :=
  (declaredName? phrase.1 phrase.2).isSome

/-- The name that a phrase declares is before its body. -/
def Phrase.NamedFirst (phrase : Phrase) : Prop :=
  ∀ called body, declaredName? phrase.1 phrase.2 = some called →
    partsNamed? [.block, .constructorBody] phrase.2 = some body →
      ∃ before name after, phrase.2 = before ++ .node name body :: after ∧
        called ∈ tokensOf before

/-! Trees at places of a text -/

def Token.stretch (token : Token) : Stretch := ⟨token.start, token.stop⟩

/-- Trees have been read from a text: their tokens stand in it one after the other, and names are
before bodies. -/
structure Placed (text : String) (trees : List JavaTree) : Prop where
  inOrder : (tokensOf trees).Pairwise (·.stop.byte ≤ ·.start.byte)
  inText : ∀ token ∈ tokensOf trees, token.stretch.Holds text token.text
  named : ∀ phrase ∈ phrasesOf trees, phrase.NamedFirst

def stretchOf? (parts : List JavaTree) : Option Stretch := do
  some ⟨(← firstOf? parts).start, (← lastOf? parts).stop⟩

structure Extent where
  whole : Stretch
  name : Stretch
  body : Option Stretch

structure Entry where
  phrase : Phrase
  declaration : Declaration
  extent : Extent

namespace Phrase

def body? (phrase : Phrase) : Option (List JavaTree) :=
  partsNamed? [.block, .constructorBody] phrase.2

def entry (phrase : Phrase) (called first last : Token) : Entry where
  phrase
  declaration.name := if phrase.1 == .method then called.text else constructorName
  declaration.range := rangeOf first last
  declaration.nameRange := rangeOf called called
  declaration.body := phrase.body?.bind spanOf?
  extent.whole := ⟨first.start, last.stop⟩
  extent.name := called.stretch
  extent.body := phrase.body?.bind stretchOf?

def entry? (phrase : Phrase) : Option Entry := do
  some (phrase.entry (← declaredName? phrase.1 phrase.2) (← firstOf? phrase.2)
    (← lastOf? phrase.2))

end Phrase

def entriesOf (trees : List JavaTree) : List Entry :=
  (phrasesOf trees).filterMap Phrase.entry?

/-- A declaration lies where the phrase does that makes it, and tells so. What its name and its body
stand for is found in the text: a method has the name that stands there, and all constructors have
one name. -/
structure Entry.Fits (text : String) (entry : Entry) : Prop where
  whole : stretchOf? entry.phrase.2 = some entry.extent.whole
  name : (declaredName? entry.phrase.1 entry.phrase.2).map Token.stretch = some entry.extent.name
  body : entry.phrase.body?.bind stretchOf? = entry.extent.body
  range : entry.declaration.range = entry.extent.whole.range
  nameRange : entry.declaration.nameRange = entry.extent.name.range
  bodySpan : entry.declaration.body = entry.extent.body.map Stretch.span
  wholeText : ∃ part, entry.extent.whole.Holds text part
  nameText : ∃ part, entry.extent.name.Holds text part ∧
    entry.declaration.name = if entry.phrase.1 = .method then part else constructorName
  bodyText : ∀ body ∈ entry.extent.body, ∃ part, body.Holds text part ∧
    entry.declaration.bodyText text = some part

/-! How declarations lie -/

section

variable (le : Mark → Mark → Prop)

structure Extent.InOrder (extent : Extent) : Prop where
  start : le extent.whole.start extent.name.start
  name : le extent.name.start extent.name.stop
  stop : le extent.name.stop extent.whole.stop
  body : ∀ body ∈ extent.body, le extent.name.stop body.start ∧ le body.start body.stop ∧
    le body.stop extent.whole.stop

def Extent.Before (first second : Extent) : Prop :=
  le first.whole.stop second.whole.start

def Extent.Inside (inner outer : Extent) : Prop :=
  le outer.whole.start inner.whole.start ∧ le inner.whole.stop outer.whole.stop

/-- Declarations are listed in the order in which they begin. Each one lies behind or inside any of
those before it. -/
structure Nested (extents : List Extent) : Prop where
  starts : extents.Pairwise fun first second => le first.whole.start second.whole.start
  apart : extents.Pairwise fun first second =>
    first.Before le second ∨ second.Inside le first
  inOrder : ∀ extent ∈ extents, extent.InOrder le

end

/-! Entries -/

section

variable {name : Part} {names : List Part} {parts inner trees others : List JavaTree}
  {phrase : Phrase} {called token : Token} {entry : Entry}

theorem tokensOf_append (trees others : List JavaTree) :
    tokensOf (trees ++ others) = tokensOf trees ++ tokensOf others := by
  induction trees with
  | nil => rfl
  | cons tree rest ih => rw [List.cons_append, tokensOf, tokensOf, ih, List.append_assoc]

theorem phrasesOf_append (trees others : List JavaTree) :
    phrasesOf (trees ++ others) = phrasesOf trees ++ phrasesOf others := by
  induction trees with
  | nil => rfl
  | cons tree rest ih => rw [List.cons_append, phrasesOf, phrasesOf, ih, List.append_assoc]

theorem firstOf?_eq (trees : List JavaTree) : firstOf? trees = (tokensOf trees).head? := by
  induction trees using parts_induction with
  | nil => rfl
  | leaf token rest ih => rfl
  | node name parts rest inner ih =>
    rw [firstOf?_node, inner, ih, tokensOf, Tree.tokens, List.head?_append]

theorem lastOf?_eq (trees : List JavaTree) : lastOf? trees = (tokensOf trees).getLast? := by
  induction trees using parts_induction with
  | nil => rfl
  | leaf token rest ih =>
    rw [lastOf?_cons, ih, tokensOf, Tree.tokens, List.getLast?_append]
    rfl
  | node name parts rest inner ih =>
    rw [lastOf?_cons, ih, tokensOf, Tree.tokens, List.getLast?_append, ← inner]
    rfl

theorem tokens_of_phrase (member : phrase ∈ phrasesOf trees) :
    (tokensOf phrase.2).Sublist (tokensOf trees) := by
  induction trees using parts_induction with
  | nil => cases member
  | leaf token rest ih => exact (ih member).trans (List.sublist_cons_self _ _)
  | node name parts rest inner ih =>
    rw [tokensOf, Tree.tokens]
    rcases List.mem_append.mp member with own | further
    · refine List.Sublist.trans ?_ (List.sublist_append_left _ _)
      rcases List.mem_cons.mp own with rfl | deeper
      · exact List.Sublist.refl _
      · exact inner deeper
    · exact (ih further).trans (List.sublist_append_right _ _)

theorem phrase_of_partsNamed? (found : partsNamed? names parts = some inner) :
    ∃ name, (name, inner) ∈ phrasesOf parts := by
  induction parts with
  | nil => cases found
  | cons tree rest ih =>
    have further (found : partsNamed? names rest = some inner) :
        ∃ name, (name, inner) ∈ phrasesOf (tree :: rest) := by
      obtain ⟨name, member⟩ := ih found
      exact ⟨name, List.mem_append_right _ member⟩
    cases tree with
    | leaf token => exact further found
    | node name own =>
      rw [partsNamed?] at found
      split at found
      · obtain rfl := Option.some.inj found
        exact ⟨name, List.mem_append_left _ List.mem_cons_self⟩
      · exact further found

theorem tokens_of_partsNamed? (found : partsNamed? names parts = some inner) :
    (tokensOf inner).Sublist (tokensOf parts) := by
  obtain ⟨name, member⟩ := phrase_of_partsNamed? found
  exact tokens_of_phrase member

theorem mem_of_tokenAmong? (found : tokenAmong? parts = some token) : token ∈ tokensOf parts := by
  induction parts with
  | nil => cases found
  | cons tree rest ih =>
    cases tree with
    | leaf first =>
      obtain rfl := Option.some.inj found
      exact List.mem_cons_self
    | node name own => exact List.mem_append_right _ (ih found)

theorem mem_of_declaredName? (found : declaredName? name parts = some called) :
    called ∈ tokensOf parts := by
  unfold declaredName? at found
  split at found
  · obtain ⟨header, isHeader, found⟩ := Option.bind_eq_some_iff.mp found
    obtain ⟨head, isHead, found⟩ := Option.bind_eq_some_iff.mp found
    rw [firstOf?_eq] at found
    exact (tokens_of_partsNamed? isHeader).subset
      ((tokens_of_partsNamed? isHead).subset (List.mem_of_mem_head? found))
  · obtain ⟨head, isHead, found⟩ := Option.bind_eq_some_iff.mp found
    exact (tokens_of_partsNamed? isHead).subset (mem_of_tokenAmong? found)
  · exact mem_of_tokenAmong? found
  · cases found

theorem exists_ends (member : token ∈ tokensOf parts) :
    ∃ first ∈ tokensOf parts, ∃ last ∈ tokensOf parts,
      firstOf? parts = some first ∧ lastOf? parts = some last := by
  have some := List.ne_nil_of_mem member
  rw [firstOf?_eq, lastOf?_eq, List.head?_eq_some_head some, List.getLast?_eq_some_getLast some]
  exact ⟨_, List.head_mem some, _, List.getLast_mem some, rfl, rfl⟩

theorem entry?_eq_some_iff : phrase.entry? = some entry ↔
    ∃ called first last, declaredName? phrase.1 phrase.2 = some called ∧
      firstOf? phrase.2 = some first ∧ lastOf? phrase.2 = some last ∧
      entry = phrase.entry called first last := by
  simp only [Phrase.entry?, Option.bind_eq_bind, Option.bind_eq_some_iff, Option.some.injEq,
    exists_and_left, eq_comm (a := entry)]

theorem map_entry? (phrase : Phrase) :
    phrase.entry?.map Entry.declaration = declaration? phrase.1 phrase.2 := by
  rw [Phrase.entry?, declaration?]
  cases declaredName? phrase.1 phrase.2 with
  | none => rfl
  | some called =>
    cases firstOf? phrase.2 with
    | none => rfl
    | some first => cases lastOf? phrase.2 <;> rfl

theorem entry?_isSome (phrase : Phrase) : phrase.entry?.isSome = phrase.declares := by
  rw [Phrase.declares, Phrase.entry?]
  cases named : declaredName? phrase.1 phrase.2 with
  | none => rfl
  | some called =>
    obtain ⟨first, _, last, _, isFirst, isLast⟩ := exists_ends (mem_of_declaredName? named)
    rw [isFirst, isLast]
    rfl

theorem map_phrase_entriesOf (trees : List JavaTree) :
    (entriesOf trees).map Entry.phrase = (phrasesOf trees).filter Phrase.declares := by
  have own (phrase : Phrase) :
      phrase.entry?.map Entry.phrase = Option.guard Phrase.declares phrase := by
    rw [Option.guard, ← entry?_isSome]
    cases found : phrase.entry? with
    | none => rfl
    | some entry =>
      obtain ⟨_, _, _, _, _, _, rfl⟩ := entry?_eq_some_iff.mp found
      rfl
  rw [entriesOf, List.map_filterMap, funext own, List.filterMap_eq_filter]

theorem entriesOf_node (name : Part) (parts rest : List JavaTree) :
    entriesOf (.node name parts :: rest) =
      (Phrase.entry? (name, parts)).toList ++ entriesOf parts ++ entriesOf rest := by
  simp only [entriesOf, phrasesOf, Tree.phrases, List.filterMap_append, List.filterMap_cons]
  cases Phrase.entry? (name, parts) <;> rfl

theorem map_declaration_entriesOf (trees : List JavaTree) :
    (entriesOf trees).map Entry.declaration = declarationsOf trees := by
  induction trees using parts_induction with
  | nil => rfl
  | leaf token rest ih => exact ih
  | node name parts rest inner ih =>
    rw [entriesOf_node, List.map_append, List.map_append, inner, ih, declarationsOf,
      Tree.declarations, ← Option.toList_map, map_entry?]

theorem ends_of_mem (member : entry ∈ entriesOf trees) :
    ∃ first ∈ tokensOf trees, ∃ last ∈ tokensOf trees,
      entry.extent.whole = ⟨first.start, last.stop⟩ := by
  obtain ⟨phrase, isPhrase, found⟩ := List.mem_filterMap.mp member
  obtain ⟨called, first, last, named, isFirst, isLast, rfl⟩ := entry?_eq_some_iff.mp found
  have inTrees := (tokens_of_phrase isPhrase).subset
  rw [firstOf?_eq] at isFirst
  rw [lastOf?_eq] at isLast
  exact ⟨first, inTrees (List.mem_of_mem_head? isFirst), last,
    inTrees (List.mem_of_getLast? isLast), rfl⟩

end

/-! Declarations of placed trees -/

section

variable {text : String} {name : Part} {parts rest trees : List JavaTree} {phrase : Phrase}
  {first last token : Token} {entry : Entry} {stretch : Stretch}

namespace Placed

theorem tail {tree : JavaTree} (placed : Placed text (tree :: rest)) : Placed text rest where
  inOrder := placed.inOrder.sublist (List.sublist_append_right _ _)
  inText token member := placed.inText token (List.mem_append_right _ member)
  named phrase member := placed.named phrase (List.mem_append_right _ member)

theorem node (placed : Placed text (.node name parts :: rest)) : Placed text parts where
  inOrder := placed.inOrder.sublist (List.sublist_append_left _ _)
  inText token member := placed.inText token (List.mem_append_left _ member)
  named phrase member :=
    placed.named phrase (List.mem_append_left _ (List.mem_cons_of_mem _ member))

/-- The parts of any phrase are placed as the trees are that it is found in. -/
theorem inner (placed : Placed text trees) (member : phrase ∈ phrasesOf trees) :
    Placed text phrase.2 := by
  induction trees using parts_induction with
  | nil => cases member
  | leaf token rest ih => exact ih placed.tail member
  | node name own rest inside ih =>
    rcases List.mem_append.mp member with isOwn | further
    · rcases List.mem_cons.mp isOwn with rfl | deeper
      · exact placed.node
      · exact inside placed.node deeper
    · exact ih placed.tail further

theorem le (placed : Placed text parts) (member : token ∈ tokensOf parts) :
    token.start.byte ≤ token.stop.byte :=
  (placed.inText token member).le

theorem first_le (placed : Placed text parts) (isFirst : firstOf? parts = some first)
    (member : token ∈ tokensOf parts) : first.start.byte ≤ token.start.byte := by
  have inOrder := placed.inOrder
  have own : first ∈ tokensOf parts → first.start.byte ≤ first.stop.byte := placed.le
  rw [firstOf?_eq] at isFirst
  obtain ⟨others, tokens⟩ := List.head?_eq_some_iff.mp isFirst
  rw [tokens] at inOrder member own
  rcases List.mem_cons.mp member with rfl | later
  · exact Nat.le_refl _
  · have follows := List.rel_of_pairwise_cons inOrder later
    have := own List.mem_cons_self
    omega

theorem le_last (placed : Placed text parts) (isLast : lastOf? parts = some last)
    (member : token ∈ tokensOf parts) : token.stop.byte ≤ last.stop.byte := by
  have inOrder := placed.inOrder
  have own : last ∈ tokensOf parts → last.start.byte ≤ last.stop.byte := placed.le
  rw [lastOf?_eq] at isLast
  obtain ⟨others, tokens⟩ := List.getLast?_eq_some_iff.mp isLast
  rw [tokens] at inOrder member own
  rcases List.mem_append.mp member with earlier | same
  · have follows := (List.pairwise_append.mp inOrder).2.2 token earlier last List.mem_cons_self
    have := own (List.mem_append_right _ List.mem_cons_self)
    omega
  · obtain rfl := List.mem_singleton.mp same
    exact Nat.le_refl _

end Placed

theorem stretchOf?_eq_some_iff : stretchOf? parts = some stretch ↔
    ∃ first last, firstOf? parts = some first ∧ lastOf? parts = some last ∧
      stretch = ⟨first.start, last.stop⟩ := by
  simp only [stretchOf?, Option.bind_eq_bind, Option.bind_eq_some_iff, Option.some.injEq,
    exists_and_left, eq_comm (a := stretch)]

theorem spanOf?_eq (parts : List JavaTree) :
    spanOf? parts = (stretchOf? parts).map Stretch.span := by
  rw [spanOf?, stretchOf?]
  cases firstOf? parts with
  | none => rfl
  | some first => cases lastOf? parts <;> rfl

theorem holds_of_stretchOf? (placed : Placed text parts) (found : stretchOf? parts = some stretch) :
    ∃ part, stretch.Holds text part := by
  obtain ⟨first, last, isFirst, isLast, rfl⟩ := stretchOf?_eq_some_iff.mp found
  have isMember := List.mem_of_mem_head? (firstOf?_eq parts ▸ isFirst)
  have isMember' := List.mem_of_getLast? (lastOf?_eq parts ▸ isLast)
  apply Stretch.exists_holds (placed.inText first isMember).start
    (placed.inText last isMember').stop
  have := placed.first_le isFirst isMember'
  have := placed.le isMember'
  dsimp only [Token.stretch]
  omega

theorem mem_of_stretchOf? (found : stretchOf? parts = some stretch) :
    ∃ first ∈ tokensOf parts, ∃ last ∈ tokensOf parts, stretch = ⟨first.start, last.stop⟩ := by
  obtain ⟨first, last, isFirst, isLast, rfl⟩ := stretchOf?_eq_some_iff.mp found
  exact ⟨first, List.mem_of_mem_head? (firstOf?_eq parts ▸ isFirst), last,
    List.mem_of_getLast? (lastOf?_eq parts ▸ isLast), rfl⟩

theorem fits_of_mem (placed : Placed text trees) (member : entry ∈ entriesOf trees) :
    entry.Fits text := by
  obtain ⟨phrase, isPhrase, found⟩ := List.mem_filterMap.mp member
  obtain ⟨called, first, last, named, isFirst, isLast, rfl⟩ := entry?_eq_some_iff.mp found
  have own := placed.inner isPhrase
  have whole : stretchOf? phrase.2 = some ⟨first.start, last.stop⟩ :=
    stretchOf?_eq_some_iff.mpr ⟨first, last, isFirst, isLast, rfl⟩
  constructor
  case whole => exact whole
  case name => exact congrArg (Option.map Token.stretch) named
  case body => rfl
  case range => rfl
  case nameRange => rfl
  case bodySpan =>
    simp only [Phrase.entry, Option.map_bind, Function.comp_def, funext spanOf?_eq]
  case wholeText => exact holds_of_stretchOf? own whole
  case nameText =>
    refine ⟨called.text, own.inText called (mem_of_declaredName? named), ?_⟩
    simp only [Phrase.entry, beq_iff_eq]
  case bodyText =>
    intro body isBody
    obtain ⟨inner, isInner, found⟩ := Option.bind_eq_some_iff.mp isBody
    obtain ⟨name, isNamed⟩ := phrase_of_partsNamed? isInner
    obtain ⟨part, holds⟩ := holds_of_stretchOf? (own.inner isNamed) found
    refine ⟨part, holds, ?_⟩
    rw [Declaration.bodyText, Phrase.entry, isInner, Option.bind_some, spanOf?_eq, found]
    exact holds.text?

theorem inOrder_of_mem (placed : Placed text trees) (member : entry ∈ entriesOf trees) :
    entry.extent.InOrder (·.byte ≤ ·.byte) := by
  obtain ⟨phrase, isPhrase, found⟩ := List.mem_filterMap.mp member
  obtain ⟨called, first, last, named, isFirst, isLast, rfl⟩ := entry?_eq_some_iff.mp found
  have own := placed.inner isPhrase
  have isMember := mem_of_declaredName? named
  constructor
  case start => exact own.first_le isFirst isMember
  case name => exact own.le isMember
  case stop => exact own.le_last isLast isMember
  case body =>
    intro body isBody
    obtain ⟨inner, isInner, found⟩ := Option.bind_eq_some_iff.mp isBody
    obtain ⟨front, isFront, back, isBack, ends⟩ := mem_of_stretchOf? found
    obtain ⟨kind, isNamed⟩ := phrase_of_partsNamed? isInner
    obtain ⟨part, holds⟩ := holds_of_stretchOf? (own.inner isNamed) found
    -- the name is before the phrase that is the body, and so before all of its tokens
    obtain ⟨before, kind, after, split, isBefore⟩ :=
      placed.named phrase isPhrase called inner named isInner
    have inOrder := own.inOrder
    rw [split, tokensOf_append] at inOrder
    have follows := (List.pairwise_append.mp inOrder).2.2 called isBefore front
      (List.mem_append_left _ isFront)
    refine ⟨?_, holds.le, ?_⟩
    · rw [ends]
      exact follows
    · rw [ends]
      exact own.le_last isLast ((tokens_of_partsNamed? isInner).subset isBack)

/-- A declaration begins behind one that is listed earlier, or lies inside it. -/
theorem apart_entriesOf (placed : Placed text trees) :
    ((entriesOf trees).map Entry.extent).Pairwise fun first second =>
      first.Before (·.byte ≤ ·.byte) second ∨ second.Inside (·.byte ≤ ·.byte) first := by
  induction trees using parts_induction with
  | nil => exact .nil
  | leaf token rest ih => exact ih placed.tail
  | node name parts rest inner ih =>
    rw [entriesOf_node, List.map_append, List.map_append, List.pairwise_append,
      List.pairwise_append]
    have inOrder := (List.pairwise_append.mp placed.inOrder).2.2
    -- first the phrase itself, then what is inside it, then what comes behind
    refine ⟨⟨?own, inner placed.node, ?inside⟩, ih placed.tail, ?behind⟩
    case own =>
      cases Phrase.entry? (name, parts) with
      | none => exact .nil
      | some entry => exact List.pairwise_singleton _ _
    case inside =>
      simp only [List.forall_mem_map, Option.mem_toList]
      intro outer isOuter entry member
      obtain ⟨called, first, last, _, isFirst, isLast, rfl⟩ := entry?_eq_some_iff.mp isOuter
      obtain ⟨front, isFront, back, isBack, ends⟩ := ends_of_mem member
      right
      rw [Extent.Inside, ends]
      exact ⟨placed.node.first_le isFirst isFront, placed.node.le_last isLast isBack⟩
    case behind =>
      simp only [← List.map_append, List.forall_mem_map]
      intro entry member other isOther
      have isOwn : entry ∈ entriesOf [.node name parts] := by
        rw [entriesOf_node]
        exact List.mem_append_left _ member
      obtain ⟨_, _, last, isLast, ends⟩ := ends_of_mem isOwn
      obtain ⟨first, isFirst, _, _, begins⟩ := ends_of_mem isOther
      left
      rw [Extent.Before, ends, begins]
      rw [tokensOf, tokensOf, List.append_nil] at isLast
      exact inOrder last isLast first isFirst

theorem nested_entriesOf (placed : Placed text trees) :
    Nested (·.byte ≤ ·.byte) ((entriesOf trees).map Entry.extent) := by
  have inOrder : ∀ extent ∈ (entriesOf trees).map Entry.extent,
      extent.InOrder (·.byte ≤ ·.byte) := by
    rw [List.forall_mem_map]
    intro entry member
    exact inOrder_of_mem placed member
  refine ⟨?starts, apart_entriesOf placed, inOrder⟩
  apply (apart_entriesOf placed).imp_of_mem
  rintro first second member _ (before | inside)
  · have own := inOrder first member
    have := own.start
    have := own.name
    have := own.stop
    rw [Extent.Before] at before
    omega
  · exact inside.1

end

/-! Places that have another order -/

section

variable {le le' : Mark → Mark → Prop} {isPlace : Mark → Prop} {extents : List Extent}

structure Extent.EndsAt (isPlace : Mark → Prop) (extent : Extent) : Prop where
  whole : isPlace extent.whole.start ∧ isPlace extent.whole.stop
  name : isPlace extent.name.start ∧ isPlace extent.name.stop
  body : ∀ body ∈ extent.body, isPlace body.start ∧ isPlace body.stop

/-- Declarations lie as they do in any order that the places have as well. -/
theorem Nested.of_order (nested : Nested le extents)
    (ends : ∀ extent ∈ extents, extent.EndsAt isPlace)
    (order : ∀ a b, isPlace a → isPlace b → le a b → le' a b) : Nested le' extents := by
  constructor
  case starts =>
    apply nested.starts.imp_of_mem
    intro first second isFirst isSecond
    exact order _ _ (ends first isFirst).whole.1 (ends second isSecond).whole.1
  case apart =>
    apply nested.apart.imp_of_mem
    intro first second isFirst isSecond
    have places := (ends first isFirst).whole
    have places' := (ends second isSecond).whole
    apply Or.imp
    · exact order _ _ places.2 places'.1
    · exact And.imp (order _ _ places.1 places'.1) (order _ _ places'.2 places.2)
  case inOrder =>
    intro extent member
    have ⟨whole, name, body⟩ := ends extent member
    have own := nested.inOrder extent member
    constructor
    case start => exact order _ _ whole.1 name.1 own.start
    case name => exact order _ _ name.1 name.2 own.name
    case stop => exact order _ _ name.2 whole.2 own.stop
    case body =>
      intro inner isBody
      have places := body inner isBody
      have ⟨after, inOrder, before⟩ := own.body inner isBody
      exact ⟨order _ _ name.2 places.1 after, order _ _ places.1 places.2 inOrder,
        order _ _ places.2 whole.2 before⟩

theorem Entry.Fits.endsAt {text : String} {entry : Entry} (fits : entry.Fits text) :
    entry.extent.EndsAt (Mark.IsOf text) := by
  obtain ⟨_, whole⟩ := fits.wholeText
  obtain ⟨_, name, _⟩ := fits.nameText
  refine ⟨⟨whole.start, whole.stop⟩, ⟨name.start, name.stop⟩, ?_⟩
  intro body isBody
  obtain ⟨_, holds, _⟩ := fits.bodyText body isBody
  exact ⟨holds.start, holds.stop⟩

end

/-- The declarations of a text, given its trees: there is one for each phrase with the name of a
method or a constructor, they come in the order in which they begin, and they lie apart or inside
each other. This can be seen from the bytes that they begin and end at, and, as long as the lines
and the columns can be counted, from their ranges. -/
structure Arranged (text : String) (trees : List JavaTree) (ds : List Declaration)
    (entries : List Entry) : Prop where
  phrases : entries.map Entry.phrase = (phrasesOf trees).filter Phrase.declares
  declarations : entries.map Entry.declaration = ds
  fits : ∀ entry ∈ entries, entry.Fits text
  bytes : Nested (·.byte ≤ ·.byte) (entries.map Entry.extent)
  points : text.utf8ByteSize < UInt32.size → Nested (·.point ≤ ·.point) (entries.map Entry.extent)

theorem arranged_of_placed {text : String} {trees : List JavaTree} (placed : Placed text trees) :
    Arranged text trees (declarationsOf trees) (entriesOf trees) := by
  have fits (entry : Entry) (member : entry ∈ entriesOf trees) := fits_of_mem placed member
  have bytes := nested_entriesOf placed
  refine ⟨map_phrase_entriesOf trees, map_declaration_entriesOf trees, fits, bytes, ?_⟩
  intro short
  have ends : ∀ extent ∈ (entriesOf trees).map Entry.extent, extent.EndsAt (Mark.IsOf text) := by
    rw [List.forall_mem_map]
    intro entry member
    exact (fits entry member).endsAt
  apply bytes.of_order ends
  intro a b isOf isOf' before
  exact isOf.point_le isOf' short before

/-! Declarations by any parser -/

/-- The trees that a parser finds have been read from the text that it was given. -/
def Places (parse : String → Except Mark (List JavaTree)) : Prop :=
  ∀ text trees, parse text = .ok trees → Placed text trees

theorem arranged_of_extractBy {parse : String → Except Mark (List JavaTree)}
    (places : Places parse) {text : String} {ds : List Declaration}
    (extracted : extractBy parse text = .ok ds) :
    ∃ trees entries, parse text = .ok trees ∧ Arranged text trees ds entries := by
  rw [extractBy] at extracted
  split at extracted
  · cases extracted
  · next trees parsed =>
    obtain rfl := Except.ok.inj extracted
    exact ⟨trees, entriesOf trees, parsed, arranged_of_placed (places text trees parsed)⟩

end CostWatch.Java

import CostWatch.Grammar.Reading
import Mathlib.Data.List.Basic

/-!
Derivations: how trees are put together from a text.

A sequence of symbols is read from a text one symbol after the other, where a phrase is read as the
symbols of one of its productions. What is known of a state is which productions are under way in
it, and how far; each step over a symbol takes them one symbol further.
-/

set_option autoImplicit false

namespace CostWatch.Grammar

def Production.symbols (production : Production) : List Symbol :=
  production.steps.map Step.symbol

namespace Language

variable {Terminal Name : Type} (language : Language Terminal Name)

def Has (production : Production) : Prop :=
  ∃ name ∈ language.names, production ∈ language.productionsOf name

def Numbered : Prop :=
  ∀ name ∈ language.names, language.names[language.number name]? = some name

end Language

/-- Trees are what symbols stand for in a text, from one of its places to another. -/
inductive Reader.Derives {Terminal Name Place Token : Type}
    (reader : Reader Terminal Name Place Token) :
    Place → List Symbol → List (Tree Name Token) → Place → Prop where
  | nothing (place : Place) : Derives reader place [] [] place
  | token {place next after : Place} {admitted : Terminals} {bit : Nat} {token : Token}
      {symbols : List Symbol} {trees : List (Tree Name Token)} :
      reader.text.next admitted place = .token bit token next →
        Derives reader next symbols trees after →
        Derives reader place (.inl bit :: symbols) (.leaf token :: trees) after
  | phrase {place next after : Place} {production : Production} {symbols : List Symbol}
      {parts trees : List (Tree Name Token)} :
      reader.language.Has production → Derives reader place production.symbols parts next →
        Derives reader next symbols trees after →
        Derives reader place (.inr production.head :: symbols)
          (reader.partsOf production.head parts ++ trees) after

theorem Reader.Derives.append {Terminal Name Place Token : Type}
    {reader : Reader Terminal Name Place Token} {place next after : Place}
    {symbols others : List Symbol} {trees more : List (Tree Name Token)}
    (first : reader.Derives place symbols trees next)
    (second : reader.Derives next others more after) :
    reader.Derives place (symbols ++ others) (trees ++ more) after := by
  induction first with
  | nothing _ => exact second
  | token isNext _ ih => exact .token isNext (ih second)
  | phrase has inner _ _ ih =>
    rw [List.append_assoc]
    exact .phrase has inner (ih second)

/-! Productions under way -/

section

variable {Terminal Name : Type} (language : Language Terminal Name)

/-- An item has a production of the language, or the one for a whole text, and all steps of it that
have not been taken. -/
structure Item.Of (item : Item) : Prop where
  production : language.Has item.production ∨ item.production = language.whole
  taken : item.taken ≤ item.production.steps.length
  rest : item.rest = item.production.steps.drop item.taken

def State.Of (state : State) : Prop :=
  ∀ item ∈ state.items, item.Of language

/-- The productions that are under way in a state, with how many steps have been taken. -/
def State.progress (state : State) : List (Production × Nat) :=
  state.items.map fun item => (item.production, item.taken)

/-- A symbol leads from one state to another: the last step of each production under way has been
over the symbol, be it the first step or one more than in the state before. -/
def Leads (before after : State) (symbol : Symbol) : Prop :=
  ∀ production taken, (production, taken) ∈ after.progress →
    ∃ earlier, taken = earlier + 1 ∧ production.symbols[earlier]? = some symbol ∧
      (language.Has production ∧ earlier = 0 ∨ (production, earlier) ∈ before.progress)

variable {language} {production other : Production} {state before after : State} {symbol : Symbol}
  {item : Item}

theorem Language.head_of_has (numbered : language.Numbered) (has : language.Has production) :
    ∃ name, language.names[production.head]? = some name ∧
      production ∈ language.productionsOf name := by
  obtain ⟨name, isName, member⟩ := has
  have found := member
  obtain ⟨_, _, rfl⟩ := List.mem_map.mp found
  exact ⟨name, numbered name isName, member⟩

theorem Language.head_lt_of_has (numbered : language.Numbered) (has : language.Has production) :
    production.head < language.size := by
  obtain ⟨name, found, _⟩ := head_of_has numbered has
  exact (List.getElem?_eq_some_iff.mp found).1

/-- A production is the only one of its phrase at its place. -/
theorem Language.eq_of_has (numbered : language.Numbered) (has : language.Has production)
    (has' : language.Has other) (head : production.head = other.head)
    (index : production.index = other.index) : production = other := by
  obtain ⟨name, found, member⟩ := head_of_has numbered has
  obtain ⟨name', found', member'⟩ := head_of_has numbered has'
  rw [head, found'] at found
  obtain rfl := Option.some.inj found
  obtain ⟨⟨a, i⟩, isAlternative, rfl⟩ := List.mem_map.mp member
  obtain ⟨⟨b, j⟩, isAlternative', rfl⟩ := List.mem_map.mp member'
  obtain rfl : i = j := index
  have first := List.mk_mem_zipIdx_iff_getElem?.mp isAlternative
  have second := List.mk_mem_zipIdx_iff_getElem?.mp isAlternative'
  obtain rfl := Option.some.inj (first.symm.trans second)
  rfl

theorem Language.eq_of_isSame (numbered : language.Numbered)
    (isOf : language.Has production ∨ production = language.whole)
    (isOf' : language.Has other ∨ other = language.whole) (head : production.head = other.head)
    (index : production.index = other.index) : production = other := by
  -- the production for a whole text has a number that no phrase has
  rcases isOf with has | rfl
  · rcases isOf' with has' | rfl
    · exact eq_of_has numbered has has' head index
    · exact absurd (head_lt_of_has numbered has) (by rw [head]; exact Nat.lt_irrefl _)
  · rcases isOf' with has' | rfl
    · exact absurd (head_lt_of_has numbered has') (by rw [← head]; exact Nat.lt_irrefl _)
    · rfl

theorem State.progress_eq (numbered : language.Numbered) (isOf : before.Of language)
    (isOf' : after.Of language) (same : before.isSame after = true) :
    before.progress = after.progress := by
  rw [State.isSame, Bool.and_eq_true, beq_iff_eq, List.all_eq_true] at same
  obtain ⟨length, same⟩ := same
  apply List.ext_getElem
  · rw [progress, progress, List.length_map, List.length_map, length]
  · intro n less less'
    rw [progress, List.length_map] at less less'
    have both : n < (before.items.zip after.items).length := by
      rw [List.length_zip]
      omega
    have pair := same _ (List.getElem_mem both)
    rw [List.getElem_zip] at pair
    simp only [Item.isSame, Bool.and_eq_true, beq_iff_eq] at pair
    obtain ⟨⟨⟨head, index⟩, taken⟩, _⟩ := pair
    have production := Language.eq_of_isSame numbered (isOf _ (List.getElem_mem less)).production
      (isOf' _ (List.getElem_mem less')).production head index
    simp only [progress, List.getElem_map, production, taken]

/-! States after a step -/

theorem eq_of_beq_symbol {a b : Symbol} (same : (a == b) = true) : a = b := by
  cases a with
  | inl bit =>
    cases b with
    | inl other =>
      have bits : (bit == other) = true := same
      rw [eq_of_beq bits]
    | inr name => cases same
  | inr name =>
    cases b with
    | inl bit => cases same
    | inr other =>
      have names : (name == other) = true := same
      rw [eq_of_beq names]

theorem mem_of_heading {groups : List (Nat × List Production)} {head : Nat}
    {group : List Production} (isGroup : (head, group) ∈ heading production groups)
    (member : other ∈ group) :
    other = production ∨ ∃ group', (head, group') ∈ groups ∧ other ∈ group' := by
  cases groups with
  | nil =>
    rw [heading, List.mem_singleton, Prod.mk.injEq] at isGroup
    rw [isGroup.2] at member
    exact .inl (List.mem_singleton.mp member)
  | cons first rest =>
    obtain ⟨own, productions⟩ := first
    rw [heading] at isGroup
    split at isGroup
    · rcases List.mem_cons.mp isGroup with same | further
      · rw [Prod.mk.injEq] at same
        rw [same.2] at member
        rcases List.mem_cons.mp member with rfl | inside
        · exact .inl rfl
        · exact .inr ⟨productions, by rw [same.1]; exact List.mem_cons_self, inside⟩
      · exact .inr ⟨group, List.mem_cons_of_mem _ further, member⟩
    · rcases List.mem_cons.mp isGroup with same | further
      · rw [Prod.mk.injEq] at same
        rw [same.2] at member
        exact .inl (List.mem_singleton.mp member)
      · exact .inr ⟨group, further, member⟩

theorem mem_of_foldr_heading {productions group : List Production} {head : Nat}
    (isGroup : (head, group) ∈ productions.foldr heading []) (member : production ∈ group) :
    production ∈ productions := by
  induction productions generalizing group with
  | nil => cases isGroup
  | cons first rest ih =>
    rcases mem_of_heading isGroup member with rfl | ⟨group', isGroup', member'⟩
    · exact List.mem_cons_self
    · exact List.mem_cons_of_mem _ (ih isGroup' member')

theorem mem_of_beginningWith {productions group : List Production} {head : Nat}
    (isGroup : (head, group) ∈ beginningWith symbol productions) (member : production ∈ group) :
    production ∈ productions ∧ production.symbols.head? = some symbol := by
  have isListed := mem_of_foldr_heading isGroup member
  rw [List.mem_filter, Option.any_eq_true] at isListed
  obtain ⟨isListed, step, isFirst, isOver⟩ := isListed
  refine ⟨isListed, ?_⟩
  rw [Production.symbols, List.head?_map, isFirst, Option.map_some, eq_of_beq_symbol isOver]

def Tables.beginning (tables : Tables) : Symbol → List (Nat × List Production)
  | .inl bit => tables.onTerminal.getD bit []
  | .inr name => tables.onPhrase.getD name []

theorem mem_of_beginning {terminals head : Nat} {group : List Production}
    (isGroup : (head, group) ∈ (language.tables terminals).beginning symbol)
    (member : production ∈ group) :
    language.Has production ∧ production.symbols.head? = some symbol := by
  have listed {find : Nat → List (Nat × List Production)} {values : List Nat} {place : Nat}
      (found : (head, group) ∈ (NatMap.ofList (values.map find)).getD place [])
      (own : values[place]? = none ∨ values[place]? = some place) :
      (head, group) ∈ find place := by
    rw [NatMap.getD, NatMap.get?_ofList, List.getElem?_map] at found
    rcases own with none | own
    · rw [none] at found
      cases found
    · rw [own] at found
      exact found
  have own (count place : Nat) :
      (List.range count)[place]? = none ∨ (List.range count)[place]? = some place := by
    by_cases less : place < count
    · exact .inr (List.getElem?_range less)
    · exact .inl (List.getElem?_eq_none (by rw [List.length_range]; omega))
  have found : (head, group) ∈
      beginningWith symbol (language.names.map language.productionsOf).flatten := by
    cases symbol with
    | inl bit => exact listed isGroup (own _ _)
    | inr name => exact listed isGroup (own _ _)
  obtain ⟨isProduction, begins⟩ := mem_of_beginningWith found member
  rw [← List.flatMap_def, List.mem_flatMap] at isProduction
  exact ⟨isProduction, begins⟩

theorem mem_items_after {terminals : Nat}
    (member : item ∈ (state.after (language.tables terminals) symbol).items) :
    (∃ old ∈ state.items, old.over? symbol = some item) ∨
      ∃ following production, language.Has production ∧
        production.symbols.head? = some symbol ∧ Item.begun? following production = some item := by
  unfold State.after State.ofItems at member
  rcases List.mem_append.mp member with continued | begun
  · exact .inl (List.mem_filterMap.mp continued)
  · obtain ⟨⟨head, group⟩, isGroup, begun⟩ := List.mem_flatMap.mp begun
    have isGroup : (head, group) ∈ (language.tables terminals).beginning symbol := by
      cases symbol <;> exact isGroup
    dsimp only at begun
    split at begun
    · cases begun
    · obtain ⟨production, member, begun⟩ := List.mem_filterMap.mp begun
      have ⟨has, begins⟩ := mem_of_beginning isGroup member
      exact .inr ⟨_, production, has, begins, begun⟩

theorem exists_of_over? {old : Item} (found : old.over? symbol = some item) :
    ∃ step rest, old.rest = step :: rest ∧ step.symbol = symbol ∧
      item = { old with taken := old.taken + 1, rank := step.rank, rest } := by
  rw [Item.over?] at found
  split at found
  · cases found
  · next step rest isRest =>
    split at found
    · next same => exact ⟨step, rest, isRest, eq_of_beq_symbol same, (Option.some.inj found).symm⟩
    · cases found

theorem exists_of_begun? {following : Terminals}
    (found : Item.begun? following production = some item) :
    ∃ step rest, production.steps = step :: rest ∧
      item = ⟨production, 1, step.rank, rest, following⟩ := by
  rw [Item.begun?] at found
  split at found
  · cases found
  · next step rest isSteps => exact ⟨step, rest, isSteps, (Option.some.inj found).symm⟩

theorem step_of_drop {steps rest : List (Step Nat Nat)} {taken : Nat} {step : Step Nat Nat}
    (left : steps.drop taken = step :: rest) :
    steps[taken]? = some step ∧ taken + 1 ≤ steps.length ∧ rest = steps.drop (taken + 1) := by
  have found : steps[taken]? = some step := by
    rw [← Nat.add_zero taken, ← List.getElem?_drop, left]
    rfl
  refine ⟨found, (List.getElem?_eq_some_iff.mp found).1, ?_⟩
  rw [← List.drop_drop, left]
  rfl

theorem State.of_after {terminals : Nat} (isOf : state.Of language) :
    (state.after (language.tables terminals) symbol).Of language := by
  intro item member
  rcases mem_items_after member with ⟨old, isOld, stepped⟩ | ⟨following, production, has, _, begun⟩
  · obtain ⟨step, rest, isRest, _, rfl⟩ := exists_of_over? stepped
    have ⟨production, _, left⟩ := isOf old isOld
    obtain ⟨_, taken, rest⟩ := step_of_drop (left.symm.trans isRest)
    exact ⟨production, taken, rest⟩
  · obtain ⟨step, rest, isSteps, rfl⟩ := exists_of_begun? begun
    constructor
    · exact .inl has
    · simp [isSteps]
    · simp [isSteps]

theorem leads_after {terminals : Nat} (isOf : state.Of language) :
    Leads language state (state.after (language.tables terminals) symbol) symbol := by
  intro production taken underWay
  obtain ⟨item, member, same⟩ := List.mem_map.mp underWay
  obtain ⟨rfl, rfl⟩ := Prod.mk.inj same
  -- a production has either been under way before, or this is the first step of it
  rcases mem_items_after member with ⟨old, isOld, stepped⟩ | ⟨following, production, has, first, begun⟩
  · obtain ⟨step, rest, isRest, isOver, rfl⟩ := exists_of_over? stepped
    obtain ⟨found, _, _⟩ := step_of_drop ((isOf old isOld).rest.symm.trans isRest)
    refine ⟨old.taken, rfl, ?_, .inr (List.mem_map_of_mem isOld)⟩
    rw [Production.symbols, List.getElem?_map, found, Option.map_some, isOver]
  · obtain ⟨step, rest, isSteps, rfl⟩ := exists_of_begun? begun
    refine ⟨0, rfl, ?_, .inl ⟨has, rfl⟩⟩
    rw [← List.head?_eq_getElem?, first]

theorem Leads.congr {before' after' : State} (leads : Leads language before after symbol)
    (same : before'.progress = before.progress) (same' : after'.progress = after.progress) :
    Leads language before' after' symbol := by
  rw [Leads, same, same']
  exact leads

theorem State.exists_of_finished {tables : Tables} {bit : Nat}
    (finished : production ∈ (state.decide tables bit).finished) :
    ∃ item ∈ state.items, item.rest = [] ∧ item.production = production := by
  -- whatever is read besides, either all complete items of a level are finished or none is
  have complete {keep : Item → Bool} (member : production ∈
      ((state.items.filter fun item => item.rest.isEmpty && item.following.testBit bit).filter
        keep).map Item.production) :
      ∃ item ∈ state.items, item.rest = [] ∧ item.production = production := by
    obtain ⟨item, isKept, same⟩ := List.mem_map.mp member
    have ⟨member, isComplete⟩ := List.mem_filter.mp (List.mem_filter.mp isKept).1
    rw [Bool.and_eq_true, List.isEmpty_iff] at isComplete
    exact ⟨item, member, isComplete.1, same⟩
  rw [State.decide] at finished
  dsimp only at finished
  repeat' split at finished
  all_goals first | exact complete finished | cases finished

theorem State.progress_of_finished {tables : Tables} {bit : Nat} (isOf : state.Of language)
    (finished : production ∈ (state.decide tables bit).finished) :
    (language.Has production ∨ production = language.whole) ∧
      (production, production.steps.length) ∈ state.progress := by
  obtain ⟨item, member, done, rfl⟩ := exists_of_finished finished
  have ⟨isProduction, taken, rest⟩ := isOf item member
  refine ⟨isProduction, ?_⟩
  have all : item.taken = item.production.steps.length := by
    rw [rest, List.drop_eq_nil_iff] at done
    omega
  rw [← all]
  exact List.mem_map_of_mem member

end

end CostWatch.Grammar

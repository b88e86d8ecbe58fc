import CostWatch.Proofs.Grammar.Derivations

/-!
Readings: whatever is read is derived from the text.

A link holds what has been read between the places of its two nodes, and leads from the state of the
one to that of the other. This stays so when readings go on as one, because nodes only do so if they
are at the same place and have the same productions under way. A production that is finished has
been read along the links that lead back over all of its steps.
-/

set_option autoImplicit false

namespace CostWatch.Grammar.Reader

variable {Terminal Name Place Token : Type}

/-- What of a node never changes. -/
structure Spot (Place : Type) where
  state : State
  place : Place

def spotOf (node : Node Name Place Token) : Spot Place := ⟨node.state, node.place⟩

def spots (nodes : Array (Node Name Place Token)) : Array (Spot Place) :=
  nodes.map spotOf

def Grows (old new : Array (Spot Place)) : Prop :=
  ∀ (i : Nat) (spot : Spot Place), old[i]? = some spot → new[i]? = some spot

theorem Grows.trans {a b c : Array (Spot Place)} (first : Grows a b) (second : Grows b c) :
    Grows a c :=
  fun i spot found => second i spot (first i spot found)

theorem Grows.push {a : Array (Spot Place)} (spot : Spot Place) : Grows a (a.push spot) := by
  intro i old found
  have less := (Array.getElem?_eq_some_iff.mp found).1
  rw [Array.getElem?_push, if_neg (by omega), found]

section

variable (reader : Reader Terminal Name Place Token) (isPlace : Place → Prop) (start : Place)

/-- A reader has the tables of its language, and it tells the places of a text apart. -/
structure Grounded : Prop where
  tables : ∃ terminals, reader.tables = reader.language.tables terminals
  numbered : reader.language.Numbered
  further : ∀ admitted place bit token next, isPlace place →
    reader.text.next admitted place = .token bit token next → isPlace next
  apart : ∀ a b, isPlace a → isPlace b → reader.text.offset a = reader.text.offset b → a = b

/-- What a link holds is derived from the text up to the node with the link. -/
def LinkFits (among : Array (Spot Place)) (spot : Spot Place) (link : Link Name Token) : Prop :=
  ∃ before, among[link.earlier]? = some before ∧
    reader.Derives before.place [link.symbol] link.parts spot.place ∧
    Leads reader.language before.state spot.state link.symbol

/-- A node is at a place of the text, which is the beginning if nothing has been read. -/
structure NodeFits (among : Array (Spot Place)) (node : Node Name Place Token) : Prop where
  isPlace : isPlace node.place
  isOf : node.state.Of reader.language
  start : (reader.language.whole, 0) ∈ node.state.progress → node.place = start
  links : ∀ link ∈ node.links, reader.LinkFits among (spotOf node) link

def AllFit (nodes : Array (Node Name Place Token)) : Prop :=
  ∀ node ∈ nodes, reader.NodeFits isPlace start (spots nodes) node

def Whole (trees : List (Tree Name Token)) : Prop :=
  trees = [] ∨
    ∃ after, reader.Derives start [.inr (reader.language.number reader.language.start)] trees after

structure Sound (readings : Readings Name Place Token) : Prop where
  nodes : reader.AllFit isPlace start readings.nodes
  complete : ∀ best ∈ readings.complete, reader.Whole start best.1

end

section

variable {reader : Reader Terminal Name Place Token} {isPlace : Place → Prop} {start : Place}
  {nodes : Array (Node Name Place Token)} {among : Array (Spot Place)} {spot : Spot Place}
  {node before other : Node Name Place Token} {link : Link Name Token}

theorem LinkFits.mono (fits : reader.LinkFits among spot link) {more : Array (Spot Place)}
    (grows : Grows among more) : reader.LinkFits more spot link := by
  obtain ⟨before, found, derives, leads⟩ := fits
  exact ⟨before, grows _ _ found, derives, leads⟩

theorem NodeFits.mono (fits : reader.NodeFits isPlace start among node)
    {more : Array (Spot Place)} (grows : Grows among more) :
    reader.NodeFits isPlace start more node :=
  { fits with links := fun link member => (fits.links link member).mono grows }

theorem spots_push (nodes : Array (Node Name Place Token)) (node : Node Name Place Token) :
    spots (nodes.push node) = (spots nodes).push (spotOf node) :=
  Array.map_push

theorem getElem?_spots (nodes : Array (Node Name Place Token)) (i : Nat) :
    (spots nodes)[i]? = nodes[i]?.map spotOf :=
  Array.getElem?_map

theorem spots_setIfInBounds {target : Nat} {new : Node Name Place Token}
    (found : nodes[target]? = some node) (same : spotOf new = spotOf node) :
    spots (nodes.setIfInBounds target new) = spots nodes := by
  apply Array.ext_getElem?
  intro i
  rw [getElem?_spots, getElem?_spots, Array.getElem?_setIfInBounds]
  by_cases here : target = i
  · subst here
    rw [if_pos rfl, if_pos (Array.getElem?_eq_some_iff.mp found).1, found, Option.map_some,
      Option.map_some, same]
  · rw [if_neg here]

theorem AllFit.push (fits : reader.AllFit isPlace start nodes)
    (new : reader.NodeFits isPlace start (spots nodes) node) :
    reader.AllFit isPlace start (nodes.push node) := by
  have grows : Grows (spots nodes) (spots (nodes.push node)) := by
    rw [spots_push]
    exact .push _
  intro some member
  rcases Array.mem_push.mp member with old | rfl
  · exact (fits some old).mono grows
  · exact new.mono grows

theorem AllFit.set (fits : reader.AllFit isPlace start nodes) {target : Nat}
    {new : Node Name Place Token} (found : nodes[target]? = some node)
    (same : spotOf new = spotOf node)
    (links : ∀ link ∈ new.links, reader.LinkFits (spots nodes) (spotOf node) link) :
    reader.AllFit isPlace start (nodes.setIfInBounds target new) := by
  intro some member
  rw [spots_setIfInBounds found same]
  rcases Array.mem_or_eq_of_mem_setIfInBounds member with old | rfl
  · exact fits some old
  · have own := fits node (Array.mem_of_getElem? found)
    have ⟨state, place⟩ := Spot.mk.inj same
    constructor
    · rw [place]
      exact own.isPlace
    · rw [state]
      exact own.isOf
    · rw [place, state]
      exact own.start
    · rw [same]
      exact links

/-- Nodes that go on as one are at one place and have the same productions under way. -/
theorem same_of_agree (grounded : reader.Grounded isPlace)
    (fits : reader.NodeFits isPlace start among node)
    (fits' : reader.NodeFits isPlace start among other) (agree : reader.agree node other = true) :
    node.place = other.place ∧ node.state.progress = other.state.progress := by
  rw [Reader.agree, Bool.and_eq_true, beq_iff_eq] at agree
  exact ⟨grounded.apart _ _ fits.isPlace fits'.isPlace agree.1,
    State.progress_eq grounded.numbered fits.isOf fits'.isOf agree.2⟩

theorem LinkFits.of_same (fits : reader.LinkFits among (spotOf node) link)
    (same : other.place = node.place ∧ other.state.progress = node.state.progress) :
    reader.LinkFits among (spotOf other) link := by
  obtain ⟨before, found, derives, leads⟩ := fits
  refine ⟨before, found, ?_, leads.congr rfl same.2⟩
  rw [spotOf, same.1]
  exact derives

/-! Nodes that become one -/

def Joins (reader : Reader Terminal Name Place Token) (nodes : Array (Node Name Place Token))
    (target : Nat) (link : Link Name Token) : Prop :=
  ∀ spot, (spots nodes)[target]? = some spot → reader.LinkFits (spots nodes) spot link

theorem AllFit.foldl {target : Nat} {joined : Link Name Token → Array (Node Name Place Token) →
      Array (Node Name Place Token)}
    (keeps : ∀ link nodes, reader.AllFit isPlace start nodes → reader.Joins nodes target link →
      reader.AllFit isPlace start (joined link nodes) ∧ spots (joined link nodes) = spots nodes)
    (fits : reader.AllFit isPlace start nodes) {links : List (Link Name Token)}
    (joins : ∀ link ∈ links, reader.Joins nodes target link) :
    reader.AllFit isPlace start (links.foldl (fun nodes link => joined link nodes) nodes) ∧
      spots (links.foldl (fun nodes link => joined link nodes) nodes) = spots nodes := by
  induction links generalizing nodes with
  | nil => exact ⟨fits, rfl⟩
  | cons link rest ih =>
    have ⟨first, others⟩ := List.forall_mem_cons.mp joins
    have ⟨fits', same⟩ := keeps link nodes fits first
    have ⟨fits'', same'⟩ := ih fits' fun link member => by
      rw [Joins, same]
      exact others link member
    exact ⟨fits'', same'.trans same⟩

theorem of_findIdx? {α : Type} {values : List α} {p : α → Bool} {i : Nat} {value : α}
    (found : ((values.findIdx? p).bind fun i => values[i]?.map (i, ·)) = some (i, value)) :
    p value = true := by
  obtain ⟨j, first, at_⟩ := Option.bind_eq_some_iff.mp found
  obtain ⟨_, isValue, same⟩ := Option.map_eq_some_iff.mp at_
  obtain ⟨rfl, rfl⟩ := Prod.mk.inj same
  obtain ⟨less, holds, _⟩ := List.findIdx?_eq_some_iff_getElem.mp first
  rw [List.getElem?_eq_getElem less] at isValue
  exact Option.some.inj isValue ▸ holds

theorem AllFit.join (grounded : reader.Grounded isPlace) (depth : Nat) {target : Nat}
    (fits : reader.AllFit isPlace start nodes) (joins : reader.Joins nodes target link) :
    reader.AllFit isPlace start (reader.join depth target link nodes) ∧
      spots (reader.join depth target link nodes) = spots nodes := by
  induction depth generalizing target link nodes with
  | zero => exact ⟨fits, rfl⟩
  | succ depth ih =>
    rw [Reader.join]
    split
    case h_2 => exact ⟨fits, rfl⟩
    case h_1 node before found isBefore =>
      have own := fits node (Array.mem_of_getElem? found)
      have isLink : reader.LinkFits (spots nodes) (spotOf node) link :=
        joins _ (by rw [getElem?_spots, found, Option.map_some])
      dsimp only
      split
      case h_1 =>
        -- the link is another one of the node
        refine ⟨fits.set found rfl ?_, spots_setIfInBounds found rfl⟩
        intro some member
        rcases List.mem_append.mp member with old | new
        · exact own.links some old
        · rw [List.mem_singleton.mp new]
          exact isLink
      case h_2 i other isAgreeing =>
        split
        · split
          · -- the link takes the place of a lighter one
            refine ⟨fits.set found rfl ?_, spots_setIfInBounds found rfl⟩
            intro some member
            rcases List.mem_or_eq_of_mem_set member with old | rfl
            · exact own.links some old
            · exact isLink
          · exact ⟨fits, rfl⟩
        · next elsewhere =>
          -- the two nodes before become one, so the links of the one are joined with the other
          have agreeing := of_findIdx? isAgreeing
          rw [Bool.and_eq_true, Bool.or_eq_true, or_iff_right elsewhere] at agreeing
          obtain ⟨_, agreeing⟩ := agreeing
          split at agreeing
          case h_2 => cases agreeing
          case h_1 otherBefore isOther =>
            have first := fits otherBefore (Array.mem_of_getElem? isOther)
            have second := fits before (Array.mem_of_getElem? isBefore)
            have same := same_of_agree grounded first second agreeing
            have kept : spots (nodes.setIfInBounds target
                { node with weight := max node.weight (before.weight + link.weight) }) =
                spots nodes :=
              spots_setIfInBounds found rfl
            rw [← kept]
            apply AllFit.foldl fun link nodes fits joins => ih fits joins
            · exact fits.set found rfl own.links
            intro more member spot isSpot
            rw [kept] at isSpot ⊢
            rw [getElem?_spots, isOther] at isSpot
            rw [← Option.some.inj isSpot]
            exact (second.links more member).of_same same

/-! Readings that go on as one -/

section

variable {readings : Readings Name Place Token} {head i kept dropped : Nat}

theorem nodeAt?_eq_some_iff : nodeAt? readings head = some (i, node) ↔
    readings.heads[head]? = some (some i) ∧ readings.nodes[i]? = some node := by
  simp only [nodeAt?, Option.bind_eq_some_iff, Option.join_eq_some_iff, Option.map_eq_some_iff,
    Prod.mk.injEq]
  constructor
  · rintro ⟨_, isHead, _, isNode, rfl, rfl⟩
    exact ⟨isHead, isNode⟩
  · rintro ⟨isHead, isNode⟩
    exact ⟨i, isHead, node, isNode, rfl, rfl⟩

theorem Sound.merge (grounded : reader.Grounded isPlace)
    (sound : reader.Sound isPlace start readings)
    (can : reader.canMerge readings kept dropped = true) :
    reader.Sound isPlace start (reader.merge kept dropped readings) ∧
      spots (reader.merge kept dropped readings).nodes = spots readings.nodes := by
  rw [canMerge] at can
  split at can
  case h_2 => cases can
  case h_1 target node _ other isKept isDropped =>
    have ⟨isHead, isNode⟩ := nodeAt?_eq_some_iff.mp isKept
    have ⟨_, isOther⟩ := nodeAt?_eq_some_iff.mp isDropped
    have first := sound.nodes node (Array.mem_of_getElem? isNode)
    have second := sound.nodes other (Array.mem_of_getElem? isOther)
    have same := same_of_agree grounded first second can
    rw [Reader.merge, isHead, isDropped]
    have joins : ∀ link ∈ other.links, reader.Joins readings.nodes target link := by
      intro link member spot isSpot
      rw [getElem?_spots, isNode] at isSpot
      rw [← Option.some.inj isSpot]
      exact (second.links link member).of_same same
    have ⟨fits, kept⟩ := AllFit.foldl
      (fun link nodes fits joins => AllFit.join grounded readings.nodes.size fits joins)
      sound.nodes joins
    exact ⟨⟨fits, sound.complete⟩, kept⟩

/-- From a certain head on, readings go on at one place. -/
structure HeadsAt (place : Place) (first : Nat) (readings : Readings Name Place Token) : Prop where
  count : first ≤ readings.heads.size
  place : ∀ head i, first ≤ head → readings.heads[head]? = some (some i) →
    ∃ spot, (spots readings.nodes)[i]? = some spot ∧ spot.place = place

/-- Readings while productions are finished at a place: nodes are added, and heads from a certain
one on are at that place. -/
structure Continues (reader : Reader Terminal Name Place Token) (isPlace : Place → Prop)
    (start place : Place) (old : Array (Spot Place)) (first : Nat)
    (readings : Readings Name Place Token) : Prop where
  sound : reader.Sound isPlace start readings
  grows : Grows old (spots readings.nodes)
  heads : HeadsAt place first readings

theorem getElem?_eraseIdxIfInBounds {α : Type} (values : Array α) (dropped i : Nat) :
    (values.eraseIdxIfInBounds dropped)[i]? =
      if i < dropped then values[i]? else values[i + 1]? := by
  rw [Array.eraseIdxIfInBounds]
  split
  · next less => exact Array.getElem?_eraseIdx less
  · split
    · rfl
    · rw [Array.getElem?_eq_none (by omega), Array.getElem?_eq_none (by omega)]

theorem HeadsAt.merge {place : Place} {first : Nat} (heads : HeadsAt place first readings)
    (inBounds : dropped < readings.heads.size) (later : first ≤ dropped)
    (same : spots (reader.merge kept dropped readings).nodes = spots readings.nodes) :
    HeadsAt place first (reader.merge kept dropped readings) := by
  have erased : (reader.merge kept dropped readings).heads = readings.heads ∨
      (reader.merge kept dropped readings).heads =
        readings.heads.eraseIdxIfInBounds dropped := by
    rw [Reader.merge]
    split
    · exact .inr rfl
    · exact .inl rfl
  constructor
  case count =>
    rcases erased with all | others
    · rw [all]
      exact heads.count
    · rw [others, Array.eraseIdxIfInBounds, dif_pos inBounds, Array.size_eraseIdx]
      omega
  case place =>
    intro head i isLater found
    rw [same]
    rcases erased with all | others
    · rw [all] at found
      exact heads.place head i isLater found
    · rw [others, getElem?_eraseIdxIfInBounds] at found
      split at found
      · exact heads.place head i isLater found
      · exact heads.place (head + 1) i (Nat.le_succ_of_le isLater) found

theorem Continues.mergeBack (grounded : reader.Grounded isPlace) {place : Place}
    {old : Array (Spot Place)} {first : Nat}
    (continues : reader.Continues isPlace start place old first readings)
    (inBounds : dropped < readings.heads.size) (later : first ≤ dropped) (excepted : Nat) :
    reader.Continues isPlace start place old first
      (reader.mergeBack excepted dropped readings) := by
  rw [Reader.mergeBack]
  split
  · next kept found =>
    have can := List.find?_some found
    rw [Bool.and_eq_true] at can
    have ⟨sound, same⟩ := continues.sound.merge grounded can.2
    refine ⟨sound, ?_, continues.heads.merge inBounds later same⟩
    rw [same]
    exact continues.grows
  · exact continues

/-! Productions that are finished -/

theorem derives_waysBack (fits : reader.AllFit isPlace start nodes) {production : Production}
    {count origin : Nat} (isSpot : (spots nodes)[origin]? = some spot)
    (underWay : count = 0 ∨ (production, count) ∈ spot.state.progress)
    {way : Nat × List (Tree Name Token) × Nat} (member : way ∈ waysBack nodes count origin) :
    ∃ before, (spots nodes)[way.1]? = some before ∧
      reader.Derives before.place (production.symbols.take count) way.2.1 spot.place := by
  -- the link that is gone back over first holds the last of the symbols
  induction count generalizing origin spot way with
  | zero =>
    rw [List.mem_singleton.mp member]
    exact ⟨spot, isSpot, .nothing _⟩
  | succ count ih =>
    rw [waysBack] at member
    rw [getElem?_spots] at isSpot
    obtain ⟨node, isNode, rfl⟩ := Option.map_eq_some_iff.mp isSpot
    rw [isNode] at member
    obtain ⟨link, isLink, member⟩ := List.mem_flatMap.mp member
    obtain ⟨⟨first, parts, weight⟩, isWay, rfl⟩ := List.mem_map.mp member
    obtain ⟨before, isBefore, derives, leads⟩ :=
      (fits node (Array.mem_of_getElem? isNode)).links link isLink
    obtain ⟨earlier, same, isSymbol, further⟩ :=
      leads production (count + 1) (underWay.resolve_left (Nat.succ_ne_zero count))
    obtain rfl := Nat.succ.inj same
    have ⟨first, isFirst, derives'⟩ := ih isBefore (further.imp And.right id) isWay
    refine ⟨first, isFirst, ?_⟩
    rw [List.take_add_one, isSymbol]
    exact derives'.append derives

theorem better_cases (a b : List (Tree Name Token) × Nat) :
    reader.better a b = a ∨ reader.better a b = b := by
  rw [better]
  split
  · exact .inr rfl
  · split
    · exact .inl rfl
    · split
      · exact .inr rfl
      · exact .inl rfl

theorem of_mem_gather {holds : Nat → List (Tree Name Token) → Prop}
    {ways found : List (Nat × List (Tree Name Token) × Nat)}
    (all : ∀ way ∈ ways, holds way.1 way.2.1) (before : ∀ way ∈ found, holds way.1 way.2.1) :
    ∀ way ∈ reader.gather ways found, holds way.1 way.2.1 := by
  induction ways generalizing found with
  | nil => exact before
  | cons way rest ih =>
    obtain ⟨origin, reading⟩ := way
    have ⟨first, others⟩ := List.forall_mem_cons.mp all
    rw [gather]
    split
    · apply ih others
      rw [List.forall_mem_map]
      rintro ⟨other, best⟩ member
      dsimp only
      split
      · next same =>
        rw [beq_iff_eq.mp same]
        rcases @better_cases _ _ _ _ reader best reading with kept | new
        · rw [kept]
          exact beq_iff_eq.mp same ▸ before (other, best) member
        · rw [new]
          exact first
      · exact before (other, best) member
    · apply ih others
      rw [List.forall_mem_append, List.forall_mem_singleton]
      exact ⟨before, first⟩

theorem NodeFits.after (grounded : reader.Grounded isPlace) (link : Link Name Token)
    (isBefore : among[link.earlier]? = some spot) (isOf : spot.state.Of reader.language)
    {place : Place} (derives : reader.Derives spot.place [link.symbol] link.parts place)
    (fits : isPlace place) (weight : Nat) :
    reader.NodeFits isPlace start among
      ⟨spot.state.after reader.tables link.symbol, place, weight, [link]⟩ := by
  obtain ⟨terminals, tables⟩ := grounded.tables
  rw [tables]
  have leads : Leads reader.language spot.state
      (spot.state.after (reader.language.tables terminals) link.symbol) link.symbol :=
    leads_after isOf
  constructor
  case isPlace => exact fits
  case isOf => exact State.of_after isOf
  case start =>
    intro begins
    obtain ⟨_, taken, _⟩ := leads _ _ begins
    cases taken
  case links =>
    rw [List.forall_mem_singleton]
    exact ⟨spot, isBefore, derives, leads⟩

theorem Continues.push {place : Place} {old : Array (Spot Place)} {first : Nat}
    (continues : reader.Continues isPlace start place old first readings)
    (fits : reader.NodeFits isPlace start (spots readings.nodes) node)
    (atPlace : node.place = place) :
    reader.Continues isPlace start place old first { readings with
      nodes := readings.nodes.push node
      heads := readings.heads.push (some readings.nodes.size) } := by
  have ⟨sound, grows, heads⟩ := continues
  constructor
  case sound => exact ⟨sound.nodes.push fits, sound.complete⟩
  case grows =>
    rw [spots_push]
    exact grows.trans (.push _)
  case heads =>
    constructor
    case count =>
      rw [Array.size_push]
      exact Nat.le_succ_of_le heads.count
    case place =>
      intro head i later found
      rw [Array.getElem?_push] at found
      rw [spots_push]
      split at found
      · obtain rfl := Option.some.inj (Option.some.inj found)
        refine ⟨spotOf node, ?_, atPlace⟩
        rw [Array.getElem?_push, spots, Array.size_map, if_pos rfl]
      · obtain ⟨spot, isSpot, same⟩ := heads.place head i later found
        exact ⟨spot, Grows.push _ i spot isSpot, same⟩

def WayFits (reader : Reader Terminal Name Place Token) (among : Array (Spot Place))
    (production : Production) (place : Place) (origin : Nat) (parts : List (Tree Name Token)) :
    Prop :=
  ∃ before, among[origin]? = some before ∧
    reader.Derives before.place production.symbols parts place

theorem WayFits.mono {more : Array (Spot Place)} {production : Production} {place : Place}
    {origin : Nat} {parts : List (Tree Name Token)}
    (fits : reader.WayFits among production place origin parts) (grows : Grows among more) :
    reader.WayFits more production place origin parts := by
  obtain ⟨before, isBefore, derives⟩ := fits
  exact ⟨before, grows _ _ isBefore, derives⟩

theorem wayFits_of_mem (fits : reader.AllFit isPlace start nodes) {production : Production}
    {origin : Nat} (isSpot : (spots nodes)[origin]? = some spot)
    (underWay : (production, production.steps.length) ∈ spot.state.progress) :
    ∀ way ∈ waysBack nodes production.steps.length origin,
      reader.WayFits (spots nodes) production spot.place way.1 way.2.1 := by
  intro way member
  obtain ⟨before, isBefore, derives⟩ := derives_waysBack fits isSpot (.inr underWay) member
  have length : production.symbols.length = production.steps.length := List.length_map ..
  rw [← length, List.take_length] at derives
  exact ⟨before, isBefore, derives⟩

theorem Continues.finish (grounded : reader.Grounded isPlace) {old : Array (Spot Place)}
    {first origin : Nat} {production : Production}
    (continues : reader.Continues isPlace start spot.place old first readings)
    (isSpot : old[origin]? = some spot) (fits : isPlace spot.place)
    (has : reader.language.Has production)
    (underWay : (production, production.steps.length) ∈ spot.state.progress) (head : Nat) :
    reader.Continues isPlace start spot.place old first
      (reader.finish head origin spot.place production readings) := by
  have ways : ∀ way ∈ reader.gather (waysBack readings.nodes production.steps.length origin) [],
      reader.WayFits (spots readings.nodes) production spot.place way.1 way.2.1 :=
    of_mem_gather
      (wayFits_of_mem continues.sound.nodes (continues.grows origin spot isSpot) underWay)
      (List.forall_mem_nil _)
  have kept : reader.Continues isPlace start spot.place (spots readings.nodes) first
      (reader.finish head origin spot.place production readings) := by
    rw [Reader.finish]
    apply List.foldlRecOn _ _ (motive := fun more =>
      reader.Continues isPlace start spot.place (spots readings.nodes) first more)
    · exact ⟨continues.sound, fun _ _ found => found, continues.heads⟩
    rintro more continues' ⟨before, parts, weight⟩ member
    -- nodes that have been added since do not change where a way leads
    obtain ⟨other, isBefore, derives⟩ := (ways _ member).mono continues'.grows
    dsimp only
    split
    · exact continues'
    · next node isNode =>
      have same := isBefore
      rw [getElem?_spots, isNode] at same
      obtain rfl := Option.some.inj same
      have isOf := (continues'.sound.nodes node (Array.mem_of_getElem? isNode)).isOf
      have derives : reader.Derives node.place [.inr production.head]
          (reader.partsOf production.head parts) spot.place := by
        rw [← List.append_nil (reader.partsOf _ _)]
        exact .phrase has derives (.nothing _)
      let link : Link Name Token := ⟨before, .inr production.head, production.steps.length,
        reader.partsOf production.head parts, weight + production.weight⟩
      have pushed := continues'.push
        (NodeFits.after grounded link isBefore isOf derives fits (node.weight + link.weight)) rfl
      apply pushed.mergeBack grounded _ continues'.heads.count
      rw [Array.size_push]
      exact Nat.lt_succ_self _
  exact { kept with grows := continues.grows.trans kept.grows }

/-! Reading on -/

theorem Sound.giveUp (sound : reader.Sound isPlace start readings) (head : Nat) :
    reader.Sound isPlace start (Reader.giveUp head readings) :=
  ⟨sound.nodes, sound.complete⟩

/-- What has been read up to a node where the production for a whole text is finished is a whole
text: there is only one node from which it can have begun. -/
theorem whole_of_link (grounded : reader.Grounded isPlace)
    (fits : reader.AllFit isPlace start nodes) (isNode : node ∈ nodes)
    (finished : (reader.language.whole, 1) ∈ node.state.progress) (member : link ∈ node.links) :
    reader.Whole start link.parts := by
  obtain ⟨spot, isBefore, derives, leads⟩ := (fits node isNode).links link member
  rw [getElem?_spots] at isBefore
  obtain ⟨before, found, rfl⟩ := Option.map_eq_some_iff.mp isBefore
  obtain ⟨earlier, same, isSymbol, begun⟩ := leads _ _ finished
  obtain rfl := Nat.succ.inj same
  rcases begun with ⟨has, _⟩ | begins
  · exact absurd (Language.head_lt_of_has grounded.numbered has) (Nat.lt_irrefl _)
  · have atStart := (fits before (Array.mem_of_getElem? found)).start begins
    have symbol : Sum.inr (reader.language.number reader.language.start) = link.symbol :=
      Option.some.inj isSymbol
    rw [← symbol, spotOf, atStart] at derives
    exact .inr ⟨_, derives⟩

theorem whole_of_foldl {links : List (Link Name Token)}
    {found : Option (List (Tree Name Token) × Nat)}
    (before : ∀ best ∈ found, reader.Whole start best.1)
    (all : ∀ link ∈ links, reader.Whole start link.parts) :
    reader.Whole start
      ((links.foldl (fun found link =>
        match found with
        | none => some (link.parts, link.weight)
        | some best => some (reader.better best (link.parts, link.weight))) found).getD
          ([], 0)).1 := by
  induction links generalizing found with
  | nil =>
    cases found with
    | none => exact .inl rfl
    | some best => exact before best rfl
  | cons link rest ih =>
    have ⟨own, others⟩ := List.forall_mem_cons.mp all
    apply ih _ others
    intro best isBest
    cases found with
    | none =>
      rw [← Option.some.inj isBest]
      exact own
    | some other =>
      rw [← Option.some.inj isBest]
      rcases @better_cases _ _ _ _ reader other (link.parts, link.weight) with kept | new
      · rw [kept]
        exact before other rfl
      · rw [new]
        exact own

theorem Sound.accept (grounded : reader.Grounded isPlace)
    (sound : reader.Sound isPlace start readings) (isNode : node ∈ readings.nodes)
    (finished : (reader.language.whole, 1) ∈ node.state.progress) (head : Nat) :
    reader.Sound isPlace start (reader.accept head node readings) := by
  refine ⟨sound.nodes, ?_⟩
  intro best isBest
  rw [← Option.some.inj isBest]
  apply whole_of_foldl sound.complete
  intro link member
  exact whole_of_link grounded sound.nodes isNode finished member

def Offers (reader : Reader Terminal Name Place Token) (place : Place) (bit : Nat)
    (token : Option (Token × Place)) : Prop :=
  ∀ next, token = some next →
    ∃ admitted, reader.text.next admitted place = .token bit next.1 next.2

/-- All productions that are finished at a node add nodes that fit. The head that is remembered is
one of theirs. -/
theorem Sound.finishAll (grounded : reader.Grounded isPlace)
    (sound : reader.Sound isPlace start readings) (isNode : readings.nodes[i]? = some node)
    {finished : List Production}
    (all : ∀ production ∈ finished, reader.language.Has production ∧
      (production, production.steps.length) ∈ node.state.progress) (head : Nat) :
    let result := finished.foldl
      (fun (readings, last?) production =>
        let count := readings.heads.size
        let readings := reader.finish head i node.place production readings
        (readings, if count < readings.heads.size then some count else last?))
      (readings, (none : Option Nat))
    reader.Continues isPlace start node.place (spots readings.nodes) readings.heads.size result.1 ∧
      ∀ last ∈ result.2, readings.heads.size ≤ last := by
  have isSpot : (spots readings.nodes)[i]? = some (spotOf node) := by
    rw [getElem?_spots, isNode, Option.map_some]
  have fits := (sound.nodes node (Array.mem_of_getElem? isNode)).isPlace
  apply List.foldlRecOn finished _
    (motive := fun (result : Readings Name Place Token × Option Nat) =>
      reader.Continues isPlace start node.place (spots readings.nodes) readings.heads.size
        result.1 ∧ ∀ last ∈ result.2, readings.heads.size ≤ last)
  · refine ⟨⟨sound, fun _ _ found => found, Nat.le_refl _, ?_⟩, nofun⟩
    intro head i later found
    rw [Array.getElem?_eq_none later] at found
    cases found
  · rintro ⟨more, last?⟩ ⟨continues, late⟩ production member
    have ⟨has, underWay⟩ := all production member
    refine ⟨continues.finish grounded isSpot fits has underWay head, ?_⟩
    intro last isLast
    dsimp only at isLast
    split at isLast
    · rw [← Option.some.inj isLast]
      exact continues.heads.count
    · exact late last isLast

theorem HeadsAt.place_of_moved {place : Place} {first last : Nat}
    (heads : HeadsAt place first readings) (earlier : head < first) (later : first ≤ last)
    (isNode : nodeAt? { readings with
      heads := (readings.heads.setIfInBounds head readings.heads[last]?.join).eraseIdxIfInBounds
        last } head = some (i, node)) : node.place = place := by
  have ⟨isHead, found⟩ := nodeAt?_eq_some_iff.mp isNode
  have count := heads.count
  rw [getElem?_eraseIdxIfInBounds, if_pos (by omega), Array.getElem?_setIfInBounds, if_pos rfl,
    if_pos (by omega)] at isHead
  obtain ⟨spot, isSpot, same⟩ :=
    heads.place last i later (Option.join_eq_some_iff.mp (Option.some.inj isHead))
  rw [getElem?_spots, found] at isSpot
  rw [← same, ← Option.some.inj isSpot, spotOf]

theorem Sound.take (grounded : reader.Grounded isPlace) (rounds : Nat)
    (sound : reader.Sound isPlace start readings) {bit : Nat} {token : Option (Token × Place)}
    (offers : ∀ i node, nodeAt? readings head = some (i, node) →
      reader.Offers node.place bit token) :
    reader.Sound isPlace start (reader.take head bit token rounds readings) := by
  induction rounds generalizing readings with
  | zero => exact sound.giveUp head
  | succ rounds ih =>
    rw [Reader.take]
    split
    · exact sound
    · next i node isNode =>
      have ⟨isHead, found⟩ := nodeAt?_eq_some_iff.mp isNode
      have own := sound.nodes node (Array.mem_of_getElem? found)
      dsimp only
      split
      · next isWhole =>
        obtain ⟨production, isFinished, same⟩ := List.any_eq_true.mp isWhole
        have ⟨isProduction, underWay⟩ := State.progress_of_finished own.isOf isFinished
        rcases isProduction with has | rfl
        · have less := Language.head_lt_of_has grounded.numbered has
          rw [beq_iff_eq.mp same] at less
          exact absurd less (Nat.lt_irrefl _)
        · exact sound.accept grounded (Array.mem_of_getElem? found) underWay head
      · next others =>
        have all : ∀ production ∈ (node.state.decide reader.tables bit).finished,
            reader.language.Has production ∧
              (production, production.steps.length) ∈ node.state.progress := by
          intro production member
          have ⟨isProduction, underWay⟩ := State.progress_of_finished own.isOf member
          refine ⟨isProduction.resolve_right ?_, underWay⟩
          rintro rfl
          exact others (List.any_eq_true.mpr ⟨_, member, beq_self_eq_true _⟩)
        have finished := sound.finishAll grounded found all head
        dsimp only at finished
        generalize List.foldl _ (readings, none) _ = result at finished ⊢
        obtain ⟨more, last?⟩ := result
        obtain ⟨continues, late⟩ := finished
        dsimp only at continues late ⊢
        have isSpot : (spots more.nodes)[i]? = some (spotOf node) := by
          apply continues.grows
          rw [getElem?_spots, found, Option.map_some]
        split
        case h_1 token after _ =>
          -- the token comes after the place of the node that was found first
          obtain ⟨admitted, isNext⟩ := offers i node isNode _ rfl
          have isPlace := grounded.further _ _ _ _ _ own.isPlace isNext
          have derives : reader.Derives node.place [.inl bit] [.leaf token] after :=
            .token isNext (.nothing after)
          exact ⟨continues.sound.nodes.push (NodeFits.after grounded ⟨i, .inl bit, 0, _, 0⟩ isSpot
            own.isOf derives isPlace _), continues.sound.complete⟩
        case h_2 last _ =>
          -- the head goes on at the same place, so the same token is offered there
          have less : head < readings.heads.size := (Array.getElem?_eq_some_iff.mp isHead).1
          refine ih ⟨continues.sound.nodes, continues.sound.complete⟩ fun j other isOther => ?_
          rw [continues.heads.place_of_moved less (late last rfl) isOther]
          exact offers i node isNode
        case h_3 => exact continues.sound.giveUp head

theorem Sound.step (grounded : reader.Grounded isPlace)
    (sound : reader.Sound isPlace start readings) (rounds head : Nat) :
    reader.Sound isPlace start (reader.step rounds head readings) := by
  rw [Reader.step]
  split
  · exact sound
  · next i node isNode =>
    -- whichever of the nodes at the head is meant, there is only one
    have own {j : Nat} {other : Node Name Place Token}
        (isOther : nodeAt? readings head = some (j, other)) : other = node :=
      (Prod.mk.inj (Option.some.inj (isOther.symm.trans isNode))).2
    split
    · exact sound.giveUp head
    · exact sound.take grounded rounds fun _ _ _ _ => nofun
    · next bit token place isNext =>
      apply sound.take grounded rounds
      intro j other isOther next isToken
      rw [own isOther, ← Option.some.inj isToken]
      exact ⟨_, isNext⟩

theorem Sound.advance (grounded : reader.Grounded isPlace) (rounds head furthest : Nat)
    (sound : reader.Sound isPlace start readings) :
    reader.Sound isPlace start (reader.advance rounds head furthest readings).1 := by
  induction rounds generalizing head furthest readings with
  | zero => exact sound
  | succ rounds ih =>
    rw [Reader.advance]
    split
    · split
      · exact ih _ _ sound
      · have next := sound.step grounded rounds head
        dsimp only
        split
        · exact ih _ _ next
        · split
          · exact ih _ _ next
          · split
            · exact ih _ _ next
            · exact ih _ _ next
    · exact sound

theorem Sound.settle (grounded : reader.Grounded isPlace) (head : Nat) (others : List Nat)
    (sound : reader.Sound isPlace start readings) :
    reader.Sound isPlace start (reader.settle head others readings).1 := by
  induction others generalizing readings with
  | nil => exact sound
  | cons other rest ih =>
    rw [Reader.settle]
    split
    · next can => exact (sound.merge grounded can).1
    · split
      · exact ih ⟨sound.nodes, sound.complete⟩
      · exact ih sound

theorem Sound.settleAll (grounded : reader.Grounded isPlace) (rounds head : Nat)
    (sound : reader.Sound isPlace start readings) :
    reader.Sound isPlace start (reader.settleAll rounds head readings) := by
  induction rounds generalizing head readings with
  | zero => exact sound
  | succ rounds ih =>
    rw [Reader.settleAll]
    split
    · exact ih _ (sound.settle grounded head _)
    · exact sound

theorem Sound.run (grounded : reader.Grounded isPlace) (rounds furthest : Nat)
    (sound : reader.Sound isPlace start readings) :
    reader.Sound isPlace start (reader.run rounds furthest readings).1 := by
  induction rounds generalizing furthest readings with
  | zero => exact sound
  | succ rounds ih =>
    have ⟨nodes, complete⟩ := sound.advance grounded rounds 0 furthest
    rw [Reader.run]
    dsimp only
    split
    · exact ⟨nodes, complete⟩
    · exact ih _ (Sound.settleAll grounded _ _ ⟨nodes, complete⟩)

theorem sound_initial (isOf : isPlace start) :
    reader.Sound isPlace start ⟨#[⟨reader.initial, start, 0, []⟩], #[some 0], none⟩ := by
  refine ⟨?_, nofun⟩
  intro node member
  rw [List.mem_toArray, List.mem_singleton] at member
  subst member
  refine ⟨isOf, ?_, fun _ => rfl, nofun⟩
  intro item member
  rw [List.mem_singleton.mp member]
  exact ⟨.inr rfl, Nat.zero_le _, rfl⟩

end

end

/-- Whatever is read from a place on is derived from the text there. -/
theorem derives_of_read {reader : Reader Terminal Name Place Token} {isPlace : Place → Prop}
    (grounded : reader.Grounded isPlace) {rounds : Nat} {start : Place} (isOf : isPlace start)
    {trees : List (Tree Name Token)} (read : reader.read rounds start = .ok trees) :
    reader.Whole start trees := by
  rw [Reader.read] at read
  dsimp only at read
  split at read
  · rw [← Except.ok.inj read]
    exact .inl rfl
  · have sound := (sound_initial isOf).run grounded rounds (reader.text.offset start)
    split at read
    · next best weight isBest =>
      rw [← Except.ok.inj read]
      exact sound.complete _ isBest
    · cases read

end CostWatch.Grammar.Reader

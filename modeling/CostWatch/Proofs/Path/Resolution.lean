import CostWatch.Proofs.Path
import CostWatch.Proofs.Session.Run

/-!
Where a path leads from a base, and how that place is written.

A path is followed segment by segment, by rules that look at no other text than the segment. Every
place has one text, in which nothing is left to be folded, and a path is resolved to the text of the
place to which it leads. So two paths are resolved to one text exactly if they lead to one place.
-/

set_option autoImplicit false

namespace CostWatch.Path

/-! Places below the root -/

/-- To which place segments lead from another one, both as names from the root. -/
inductive Leads : List (List Char) → List (List Char) → List (List Char) → Prop where
  | arrived {place : List (List Char)} : Leads place [] place
  | stay {place segments goal : List (List Char)} {segment : List Char} :
      segment ∈ [[], ['.']] → Leads place segments goal → Leads place (segment :: segments) goal
  | up {place segments goal : List (List Char)} {name : List Char} :
      Leads place segments goal → Leads (place ++ [name]) (['.', '.'] :: segments) goal
  /-- There is nothing above the root. -/
  | top {segments goal : List (List Char)} :
      Leads [] segments goal → Leads [] (['.', '.'] :: segments) goal
  | down {place segments goal : List (List Char)} {name : List Char} :
      name ∉ [[], ['.'], ['.', '.']] → Leads (place ++ [name]) segments goal →
      Leads place (name :: segments) goal

/-- The place to which a path leads: from the root if it begins there, and from a base otherwise. -/
inductive Reaches (base path : List Char) (goal : List (List Char)) : Prop where
  | fromRoot : isAbsolute path = true → Leads [] (segments path) goal → Reaches base path goal
  | fromBase {start : List (List Char)} : isAbsolute path = false → Leads [] (segments base) start →
      Leads start (segments path) goal → Reaches base path goal

/-- A text of a place in which nothing is left to be folded: from the root names follow, with a
single slash before each of them. -/
structure IsNormal (cs : List Char) : Prop where
  absolute : isAbsolute cs = true
  names : cs ≠ ['/'] → ∀ segment ∈ segments cs.tail, segment ∉ [[], ['.'], ['.', '.']]
  noSlash : cs ≠ ['/'] → cs.getLast? ≠ some '/'

def rooted (names : List (List Char)) : List Char :=
  '/' :: ['/'].intercalate names

/-! Following segments -/

def Place.follow (place : Place) (segments : List (List Char)) : Place :=
  (segments.filterMap Component.ofSegment?).foldl Place.step place

theorem Place.follow_cons (place : Place) (segment : List Char) (rest : List (List Char)) :
    place.follow (segment :: rest) =
      ((Component.ofSegment? segment).toList.foldl Place.step place).follow rest := by
  rw [follow, List.filterMap_cons, follow]
  cases Component.ofSegment? segment <;> rfl

theorem Place.follow_join {path : List Char} (place : Place) (base : List Char)
    (relative : isAbsolute path = false) :
    place.follow (segments (join base path)) =
      (place.follow (segments base)).follow (segments path) := by
  rw [follow, filterMap_segments_join base relative, List.foldl_append]
  rfl

section
variable {segment : List Char}

theorem ofSegment?_of_stay (stays : segment ∈ [[], ['.']]) :
    Component.ofSegment? segment = none :=
  if_pos (by simpa using stays)

theorem ofSegment?_of_name (name : segment ∉ [[], ['.'], ['.', '.']]) :
    Component.ofSegment? segment = some (.name segment) := by
  simp only [List.mem_cons, List.not_mem_nil, or_false, not_or] at name
  simp [Component.ofSegment?, name]

end

section
variable {place goal : List (List Char)} {segments : List (List Char)}

theorem follow_of_leads (leads : Leads place segments goal) :
    (⟨true, place⟩ : Place).follow segments = ⟨true, goal⟩ := by
  induction leads with
  | arrived => rfl
  | stay stays _ ih =>
    rw [Place.follow_cons, ofSegment?_of_stay stays]
    exact ih
  | up _ ih =>
    rw [Place.follow_cons, ← ih]
    simp [Component.ofSegment?, Place.step]
  | top _ ih => exact ih
  | down name _ ih =>
    rw [Place.follow_cons, ofSegment?_of_name name]
    exact ih

theorem exists_leads (place segments : List (List Char)) : ∃ goal, Leads place segments goal := by
  induction segments generalizing place with
  | nil => exact ⟨place, .arrived⟩
  | cons segment rest ih =>
    by_cases stays : segment ∈ [[], ['.']]
    · exact (ih place).imp fun _ => .stay stays
    by_cases up : segment = ['.', '.']
    · subst up
      rcases List.eq_nil_or_concat place with rfl | ⟨front, name, rfl⟩
      · exact (ih []).imp fun _ => .top
      · rw [List.concat_eq_append]
        exact (ih front).imp fun _ => .up
    · have name : segment ∉ [[], ['.'], ['.', '.']] := by
        simpa [not_or, up] using stays
      exact (ih (place ++ [segment])).imp fun _ => .down name

theorem leads_iff :
    Leads place segments goal ↔ (⟨true, place⟩ : Place).follow segments = ⟨true, goal⟩ := by
  refine ⟨follow_of_leads, fun followed => ?_⟩
  obtain ⟨other, leads⟩ := exists_leads place segments
  cases (follow_of_leads leads).symm.trans followed
  exact leads

end

/-! The place of a path -/

section
variable {base path : List Char} {goal : List (List Char)}

theorem placeOf_of_isAbsolute (absolute : isAbsolute path = true) :
    placeOf path = (⟨true, []⟩ : Place).follow (segments path) := by
  cases path with
  | nil => cases absolute
  | cons c rest =>
    have slash : c = '/' := by simpa [isAbsolute] using absolute
    subst slash
    rfl

theorem exists_reaches (base path : List Char) : ∃ goal, Reaches base path goal := by
  cases absolute : isAbsolute path with
  | true => exact (exists_leads [] (segments path)).imp fun _ => .fromRoot absolute
  | false =>
    obtain ⟨start, leads⟩ := exists_leads [] (segments base)
    exact (exists_leads start (segments path)).imp fun _ => .fromBase absolute leads

theorem placeOf_of_reaches (rooted : isAbsolute base = true) (reaches : Reaches base path goal) :
    placeOf (join base path) = ⟨true, goal⟩ := by
  cases reaches with
  | fromRoot absolute leads =>
    rw [join, if_pos absolute, placeOf_of_isAbsolute absolute]
    exact follow_of_leads leads
  | fromBase relative first further =>
    have absolute : isAbsolute (join base path) = true :=
      (isAbsolute_join base relative).trans rooted
    rw [placeOf_of_isAbsolute absolute, Place.follow_join _ base relative, follow_of_leads first]
    exact follow_of_leads further

end

/-! The text of a place -/

def IsName (segment : List Char) : Prop :=
  segment ∉ [[], ['.'], ['.', '.']] ∧ '/' ∉ segment

section
variable {names : List (List Char)}

theorem isName_of_leads {place segments goal : List (List Char)} (leads : Leads place segments goal)
    (before : ∀ name ∈ place, IsName name) (single : ∀ segment ∈ segments, '/' ∉ segment) :
    ∀ name ∈ goal, IsName name := by
  induction leads with
  | arrived => exact before
  | stay _ _ ih => exact ih before (List.forall_mem_cons.mp single).2
  | up _ ih =>
    exact ih (fun name member => before name (List.mem_append_left _ member))
      (List.forall_mem_cons.mp single).2
  | top _ ih => exact ih nofun (List.forall_mem_cons.mp single).2
  | down down _ ih =>
    obtain ⟨first, others⟩ := List.forall_mem_cons.mp single
    refine ih (fun name member => ?_) others
    rcases List.mem_append.mp member with old | new
    · exact before name old
    · exact List.mem_singleton.mp new ▸ ⟨down, first⟩

theorem leads_names (place : List (List Char)) (down : ∀ name ∈ names, IsName name) :
    Leads place names (place ++ names) := by
  induction names generalizing place with
  | nil =>
    rw [List.append_nil]
    exact .arrived
  | cons name rest ih =>
    obtain ⟨first, others⟩ := List.forall_mem_cons.mp down
    have further := ih (place ++ [name]) others
    rw [List.append_assoc] at further
    exact .down first.1 further

theorem joinNames_eq_intercalate (names : List (List Char)) :
    joinNames names = ['/'].intercalate names := by
  induction names with
  | nil => rfl
  | cons name rest ih =>
    cases rest with
    | nil => exact (List.intercalate_singleton ..).symm
    | cons next rest =>
      rw [List.intercalate_cons_cons, ← ih, List.append_assoc]
      rfl

theorem text_eq_rooted (names : List (List Char)) : (⟨true, names⟩ : Place).text = rooted names :=
  congrArg ('/' :: ·) (joinNames_eq_intercalate names)

/-- What follows the first slash of the text of a place are its names, or nothing at the root. -/
theorem segments_intercalate (single : ∀ name ∈ names, '/' ∉ name) :
    segments (['/'].intercalate names) = if names = [] then [[]] else names := by
  induction names with
  | nil => rfl
  | cons name rest ih =>
    obtain ⟨first, others⟩ := List.forall_mem_cons.mp single
    cases rest with
    | nil =>
      rw [List.intercalate_singleton]
      exact segments_eq_singleton first
    | cons next rest =>
      rw [List.intercalate_cons_cons, List.append_assoc, List.singleton_append, segments_append,
        ih others, segments_eq_singleton first]
      rfl

theorem leads_rooted (down : ∀ name ∈ names, IsName name) :
    Leads [] (segments (rooted names)) names := by
  have single : ∀ name ∈ names, '/' ∉ name := fun name member => (down name member).2
  refine .stay (by decide) ?_
  rw [segments_intercalate single]
  split
  · next root =>
    rw [root]
    exact .stay (by decide) .arrived
  · exact leads_names [] down

theorem isNormal_rooted (down : ∀ name ∈ names, IsName name) : IsNormal (rooted names) := by
  have single : ∀ name ∈ names, '/' ∉ name := fun name member => (down name member).2
  have proper (deep : rooted names ≠ ['/']) :
      ∀ segment ∈ segments (rooted names).tail, segment ∉ [[], ['.'], ['.', '.']] := by
    have some : names ≠ [] := by
      rintro rfl
      exact deep rfl
    rw [rooted, List.tail_cons, segments_intercalate single, if_neg some]
    exact fun segment member => (down segment member).1
  refine ⟨rfl, proper, fun deep slash => ?_⟩
  obtain ⟨front, ends⟩ := List.getLast?_eq_some_iff.mp slash
  cases front with
  | nil => exact deep ends
  | cons c front =>
    -- A slash at the end would have an empty name behind it.
    have tail : (rooted names).tail = front ++ '/' :: [] := congrArg List.tail ends
    have empty : [] ∈ segments (rooted names).tail := by
      rw [tail, segments_append]
      exact List.mem_append_right _ List.mem_cons_self
    exact proper deep [] empty List.mem_cons_self

end

/-! Resolution -/

theorem isName_of_reaches {base path : List Char} {goal : List (List Char)}
    (reaches : Reaches base path goal) : ∀ name ∈ goal, IsName name := by
  have single (cs : List Char) : ∀ segment ∈ segments cs, '/' ∉ segment := fun _ =>
    not_mem_of_mem_segments
  cases reaches with
  | fromRoot _ leads => exact isName_of_leads leads nofun (single path)
  | fromBase _ first further =>
    exact isName_of_leads further (isName_of_leads first nofun (single base)) (single path)

section
variable {base path other further : String} {goal : List (List Char)}
  (absolute : isAbsolute base.toList = true)
include absolute

theorem resolve_of_reaches (reaches : Reaches base.toList path.toList goal) :
    resolve base path = String.ofList (rooted goal) := by
  rw [resolve, placeOf_of_reaches absolute reaches, text_eq_rooted]

theorem leads_resolve (reaches : Reaches base.toList path.toList goal) :
    isAbsolute (resolve base path).toList = true ∧
      Leads [] (segments (resolve base path).toList) goal := by
  rw [resolve_of_reaches absolute reaches, String.toList_ofList]
  exact ⟨rfl, leads_rooted (isName_of_reaches reaches)⟩

theorem resolve_eq_iff :
    resolve base path = resolve base other ↔
      ∃ goal, Reaches base.toList path.toList goal ∧ Reaches base.toList other.toList goal := by
  constructor
  · intro same
    obtain ⟨goal, reaches⟩ := exists_reaches base.toList path.toList
    obtain ⟨goal', reaches'⟩ := exists_reaches base.toList other.toList
    have leads := (leads_resolve absolute reaches).2
    rw [same, leads_iff] at leads
    have leads' := leads_iff.mp (leads_resolve absolute reaches').2
    cases leads.symm.trans leads'
    exact ⟨goal, reaches, reaches'⟩
  · rintro ⟨goal, reaches, reaches'⟩
    rw [resolve_of_reaches absolute reaches, resolve_of_reaches absolute reaches']

theorem resolve_resolve : resolve base (resolve base path) = resolve base path := by
  obtain ⟨goal, reaches⟩ := exists_reaches base.toList path.toList
  obtain ⟨fromRoot, leads⟩ := leads_resolve absolute reaches
  exact (resolve_eq_iff absolute).mpr ⟨goal, .fromRoot fromRoot leads, reaches⟩

theorem resolve_append (relative : isAbsolute further.toList = false) :
    resolve base (append path further) = resolve (resolve base path) further := by
  obtain ⟨goal, reaches⟩ := exists_reaches base.toList path.toList
  obtain ⟨fromRoot, leads⟩ := leads_resolve absolute reaches
  obtain ⟨last, leads'⟩ := exists_leads goal (segments further.toList)
  have joined (start : List (List Char)) (first : Leads start (segments path.toList) goal) :
      Leads start (segments (append path further).toList) last := by
    rw [append, String.toList_ofList, leads_iff, Place.follow_join _ _ relative,
      follow_of_leads first, follow_of_leads leads']
  have begins : isAbsolute (append path further).toList = isAbsolute path.toList := by
    rw [append, String.toList_ofList, isAbsolute_join _ relative]
  have whole : Reaches base.toList (append path further).toList last := by
    cases reaches with
    | fromRoot fromRoot first => exact .fromRoot (begins.trans fromRoot) (joined [] first)
    | fromBase fromBase start first =>
      exact .fromBase (begins.trans fromBase) start (joined _ first)
  rw [resolve_of_reaches absolute whole,
    resolve_of_reaches fromRoot (.fromBase relative leads leads')]

end

/-- A path is resolved from a base to the normal text of the place to which it leads. Resolving what
is resolved changes nothing, a path that is joined to another one goes on where that one leads, and
two paths name one document exactly if they lead to one place. -/
theorem resolve_exact {base further : String} (path other : String)
    (absolute : isAbsolute base.toList = true) (relative : isAbsolute further.toList = false) :
    IsNormal (resolve base path).toList ∧
    (∃ goal, Reaches base.toList path.toList goal ∧ (resolve base path).toList = rooted goal) ∧
    resolve base (resolve base path) = resolve base path ∧
    resolve base (append path further) = resolve (resolve base path) further ∧
    ∀ (s : Session) (a : Analysis), s.config.workspace.root = base → a.document = none →
      (s.reportedDocument a path = s.reportedDocument a other ↔
        ∃ goal, Reaches base.toList path.toList goal ∧ Reaches base.toList other.toList goal) := by
  obtain ⟨goal, reaches⟩ := exists_reaches base.toList path.toList
  have written : (resolve base path).toList = rooted goal := by
    rw [resolve_of_reaches absolute reaches, String.toList_ofList]
  refine ⟨written ▸ isNormal_rooted (isName_of_reaches reaches), ⟨goal, reaches, written⟩,
    resolve_resolve absolute, resolve_append absolute relative, fun s a root project => ?_⟩
  simp only [Session.reportedDocument, project, root, Document.mk.injEq]
  exact resolve_eq_iff absolute

/-- The path goes above the root, with repeated slashes and dots. It names the document that is
reached from the root at once. -/
theorem resolve_exact_above_root :
    isAbsolute "/work".toList = true ∧ isAbsolute "./../A.java".toList = false ∧
      resolve "/work" (append "..//../lib/.//src/" "./../A.java") =
        resolve (resolve "/work" "..//../lib/.//src/") "./../A.java" ∧
      resolve "/work" "..//../lib/.//src/" = "/lib/src" ∧
      Sample.session.reportedDocument (Sample.projectAnalysis 1 .reExecute) "..//../lib/.//src/" =
        Sample.session.reportedDocument (Sample.projectAnalysis 1 .reExecute) "/lib/src" := by
  have absolute : isAbsolute "/work".toList = true := by decide
  have relative : isAbsolute "./../A.java".toList = false := by decide
  have law := resolve_exact "..//../lib/.//src/" "/lib/src" absolute relative
  have resolved : resolve "/work" "..//../lib/.//src/" = "/lib/src" := by decide +kernel
  have root : Sample.session.config.workspace.root = "/work" := by decide +kernel
  have start : Leads [] (segments "/work".toList) ["work".toList] := leads_iff.mpr (by decide)
  have fromBase : Reaches "/work".toList "..//../lib/.//src/".toList ["lib".toList, "src".toList] :=
    .fromBase (by decide) start (leads_iff.mpr (by decide))
  have fromRoot : Reaches "/work".toList "/lib/src".toList ["lib".toList, "src".toList] :=
    .fromRoot (by decide) (leads_iff.mpr (by decide))
  exact ⟨absolute, relative, law.2.2.2.1, resolved,
    (law.2.2.2.2 _ _ root rfl).mpr ⟨_, fromBase, fromRoot⟩⟩

end CostWatch.Path

import CostWatch.Cost.Record
import Mathlib.Data.List.TakeDrop

/-!
Paths and the places that they lead to, and what the names of documents are made of.

A path that goes on has the segments of both its parts. With one segment more it leads to the same
place, one step further: below it, unless the segment is one of the two that are no names.
-/

set_option autoImplicit false

namespace CostWatch

namespace Path

/-! Segments -/

theorem segments_cons {c : Char} (name : c ≠ '/') (rest : List Char) :
    ∃ first others, segments rest = first :: others ∧
      segments (c :: rest) = (c :: first) :: others := by
  induction rest generalizing c with
  | nil => exact ⟨[], [], rfl, by simp [segments]⟩
  | cons next rest ih =>
    by_cases slash : next = '/'
    · subst slash
      exact ⟨[], segments rest, rfl, by simp [segments]⟩
    · obtain ⟨first, others, _, segmented⟩ := ih slash
      exact ⟨next :: first, others, segmented, by rw [segments, segmented]; exact name⟩

theorem segments_append (path further : List Char) :
    segments (path ++ '/' :: further) = segments path ++ segments further := by
  induction path with
  | nil => rfl
  | cons c path ih =>
    by_cases slash : c = '/'
    · subst slash
      rw [List.cons_append, segments, ih, segments, List.cons_append]
    · obtain ⟨first, others, rest, segmented⟩ := segments_cons slash path
      obtain ⟨first', others', rest', segmented'⟩ := segments_cons slash (path ++ '/' :: further)
      rw [ih, rest, List.cons_append] at rest'
      cases rest'
      rw [List.cons_append, segmented', segmented, List.cons_append]

theorem segments_eq_singleton {segment : List Char} (name : '/' ∉ segment) :
    segments segment = [segment] := by
  induction segment with
  | nil => rfl
  | cons c segment ih =>
    simp only [List.mem_cons, not_or] at name
    obtain ⟨first, others, rest, segmented⟩ := segments_cons (Ne.symm name.1) segment
    rw [ih name.2] at rest
    cases rest
    exact segmented

theorem not_mem_of_mem_segments {path segment : List Char} (member : segment ∈ segments path) :
    '/' ∉ segment := by
  induction path generalizing segment with
  | nil =>
    rw [List.mem_singleton.mp member]
    exact List.not_mem_nil
  | cons c path ih =>
    by_cases slash : c = '/'
    · subst slash
      rcases List.mem_cons.mp member with rfl | later
      · exact List.not_mem_nil
      · exact ih later
    · obtain ⟨first, others, rest, segmented⟩ := segments_cons slash path
      rw [segmented] at member
      rw [rest] at ih
      rcases List.mem_cons.mp member with rfl | later
      · simp only [List.mem_cons, not_or]
        exact ⟨Ne.symm slash, ih List.mem_cons_self⟩
      · exact ih (List.mem_cons_of_mem _ later)

/-! Paths that go on -/

/-- The segments of a path in front of one that is joined to it. -/
def folders (base : List Char) : List (List Char) :=
  if base = [] then []
  else if base.getLast? = some '/' then (segments base).dropLast
  else segments base

theorem isAbsolute_eq_false {segment : List Char} (name : '/' ∉ segment) :
    isAbsolute segment = false := by
  cases segment with
  | nil => rfl
  | cons c segment =>
    simp only [List.mem_cons, not_or] at name
    simpa [isAbsolute] using Ne.symm name.1

theorem segments_ne_nil (path : List Char) : segments path ≠ [] := by
  cases path with
  | nil => exact List.cons_ne_nil _ _
  | cons c path =>
    by_cases slash : c = '/'
    · subst slash
      exact List.cons_ne_nil _ _
    · obtain ⟨first, others, _, segmented⟩ := segments_cons slash path
      rw [segmented]
      exact List.cons_ne_nil _ _

theorem segments_eq_folders {base : List Char} (nonempty : base ≠ []) :
    folders base ≠ [] ∧
      (segments base = folders base ∨ segments base = folders base ++ [[]]) := by
  rw [folders, if_neg nonempty]
  split
  · next slash =>
    obtain ⟨front, rfl⟩ := List.getLast?_eq_some_iff.mp slash
    rw [segments_append, show segments [] = [[]] from rfl, List.dropLast_concat]
    exact ⟨segments_ne_nil front, .inr rfl⟩
  · exact ⟨segments_ne_nil base, .inl rfl⟩

theorem filterMap_folders (base : List Char) :
    (folders base).filterMap Component.ofSegment? =
      (segments base).filterMap Component.ofSegment? := by
  by_cases empty : base = []
  · subst empty
    rfl
  · rcases (segments_eq_folders empty).2 with same | more
    · rw [same]
    · rw [more, List.filterMap_append]
      exact (List.append_nil _).symm

section
variable {path : List Char} (base : List Char) (relative : isAbsolute path = false)
include relative

theorem join_eq :
    join base path =
      if base = [] ∨ base.getLast? = some '/' then base ++ path else base ++ '/' :: path := by
  rw [join, relative, if_neg Bool.false_ne_true]

theorem isAbsolute_join : isAbsolute (join base path) = isAbsolute base := by
  rw [join_eq base relative]
  cases base with
  | nil => exact relative
  | cons c base => split <;> rfl

theorem segments_join : segments (join base path) = folders base ++ segments path := by
  rw [join_eq base relative, folders]
  by_cases empty : base = []
  · subst empty
    rfl
  · simp only [empty, false_or, if_false]
    split
    · next slash =>
      obtain ⟨front, rfl⟩ := List.getLast?_eq_some_iff.mp slash
      have rejoined : front ++ ['/'] ++ path = front ++ '/' :: path := by simp
      rw [rejoined, segments_append, segments_append, show segments [] = [[]] from rfl,
        List.dropLast_concat]
    · rw [segments_append]

theorem filterMap_segments_join :
    (segments (join base path)).filterMap Component.ofSegment? =
      (segments base).filterMap Component.ofSegment? ++
        (segments path).filterMap Component.ofSegment? := by
  rw [segments_join base relative, List.filterMap_append, filterMap_folders]

end

/-! Paths that go on with a segment -/

theorem leading_cons_cons (c next : Char) (rest rest' : List Char) :
    leading (c :: next :: rest) = leading (c :: next :: rest') := by
  by_cases root : c = '/'
  · simp [leading, root]
  · by_cases dot : c = '.'
    · by_cases slash : next = '/' <;> simp [leading, dot, slash]
    · simp [leading, root, dot]

theorem leading_eq_here {segment : List Char} (name : '/' ∉ segment) :
    leading segment = if segment = ['.'] then [.here] else [] := by
  match segment with
  | [] => rfl
  | [c] =>
    by_cases dot : c = '.'
    · simp [leading, dot]
    · have root : c ≠ '/' := by simpa [eq_comm] using name
      simp [leading, root, dot]
  | c :: next :: rest =>
    simp only [List.mem_cons, not_or] at name
    simp [leading, Ne.symm name.1, Ne.symm name.2.1]

section
variable {segment : List Char} (base : List Char)

theorem leading_join {base : List Char} (nonempty : base ≠ []) (name : '/' ∉ segment) :
    leading (join base segment) = leading base := by
  rw [join_eq base (isAbsolute_eq_false name)]
  match base with
  | [c] =>
    by_cases root : c = '/'
    · simp [leading, root]
    · by_cases dot : c = '.' <;> simp [leading, root, dot]
  | c :: next :: rest =>
    split
    · exact leading_cons_cons c next _ rest
    · exact leading_cons_cons c next _ rest

theorem filterMap_segment (name : '/' ∉ segment) :
    (segments segment).filterMap Component.ofSegment? =
      (Component.ofSegment? segment).toList := by
  rw [segments_eq_singleton name, List.filterMap_cons]
  cases Component.ofSegment? segment <;> rfl

/-- One segment more is one component more, if it counts. -/
theorem components_join {base : List Char} (nonempty : base ≠ []) (name : '/' ∉ segment) :
    components (join base segment) =
      components base ++ (Component.ofSegment? segment).toList := by
  rw [components, leading_join nonempty name,
    filterMap_segments_join base (isAbsolute_eq_false name), filterMap_segment name, components,
    List.append_assoc]

theorem components_join_name (name : '/' ∉ segment)
    (counts : Component.ofSegment? segment = some (.name segment)) :
    components (join base segment) = components base ++ [.name segment] := by
  by_cases empty : base = []
  · subst empty
    have proper : segment ≠ ['.'] := by
      rintro rfl
      cases counts
    rw [join_eq [] (isAbsolute_eq_false name), if_pos (.inl rfl), List.nil_append, components,
      leading_eq_here name, if_neg proper, filterMap_segment name, counts]
    rfl
  · rw [components_join empty name, counts]
    rfl

theorem placeOf_join (name : '/' ∉ segment) :
    placeOf (join base segment) =
      (Component.ofSegment? segment).toList.foldl Place.step (placeOf base) := by
  by_cases empty : base = []
  · subst empty
    have alone : join [] segment = segment := by
      rw [join_eq [] (isAbsolute_eq_false name), if_pos (.inl rfl), List.nil_append]
    -- Here a dot counts, as a step that stays.
    have stays : (leading segment).foldl Place.step ⟨false, []⟩ = ⟨false, []⟩ := by
      rw [leading_eq_here name]
      split <;> rfl
    rw [alone, placeOf, components, List.foldl_append, stays, filterMap_segment name]
    rfl
  · rw [placeOf, components_join empty name, List.foldl_append, placeOf]

end

/-! Places below others -/

def Place.Below (inner outer : Place) : Prop :=
  ∃ further, further ≠ [] ∧ inner = { outer with names := outer.names ++ further }

/-- A path that goes on with a name leads below the place where it led before. The two segments that
are no names lead to the place itself and to the one above it. -/
theorem below_join_iff {segment : List Char} (base : List Char) (name : '/' ∉ segment)
    (nonempty : segment ≠ []) :
    (placeOf (join base segment)).Below (placeOf base) ↔
      segment ≠ ['.'] ∧ segment ≠ ['.', '.'] := by
  have notBelow {place outer : Place} (short : place.names.length ≤ outer.names.length) :
      ¬place.Below outer := by
    rintro ⟨further, some, rfl⟩
    have positive := List.length_pos_iff.mpr some
    simp only [List.length_append] at short
    omega
  rw [placeOf_join base name]
  by_cases here : segment = ['.']
  · have stays : Component.ofSegment? segment = none := by simp [Component.ofSegment?, here]
    rw [stays]
    exact iff_of_false (notBelow (Nat.le_refl _)) (by simp [here])
  · by_cases up : segment = ['.', '.']
    · have goesUp : Component.ofSegment? segment = some .up := by simp [Component.ofSegment?, up]
      rw [goesUp]
      refine iff_of_false (notBelow ?_) (by simp [up])
      simp [Place.step]
    · have named : Component.ofSegment? segment = some (.name segment) := by
        simp [Component.ofSegment?, nonempty, here, up]
      rw [named]
      exact iff_of_true ⟨[segment], List.cons_ne_nil _ _, rfl⟩ ⟨here, up⟩

/-! File names -/

theorem eq_of_splitAtLastDot {name stem suffix : List Char}
    (split : splitAtLastDot name = some (stem, suffix)) : name = stem ++ '.' :: suffix := by
  have parts := List.takeWhile_append_dropWhile (p := (· != '.')) (l := name.reverse)
  have dot := List.head?_dropWhile_not (· != '.') name.reverse
  rw [splitAtLastDot, List.span_eq_takeWhile_dropWhile] at split
  cases rest : name.reverse.dropWhile (· != '.') with
  | nil =>
    rw [rest] at split
    cases split
  | cons c before =>
    rw [rest] at split dot parts
    cases split
    have isDot : c = '.' := by simpa using dot
    have turned := congrArg List.reverse parts
    rw [isDot, List.reverse_append, List.reverse_reverse] at turned
    refine turned.symm.trans ?_
    rw [List.reverse_cons, List.append_assoc]
    rfl

theorem mem_segments_of_fileName? {path name : List Char} (found : fileName? path = some name) :
    name ∈ segments path ∧ name ≠ [] := by
  rw [fileName?] at found
  split at found
  · next last =>
    cases found
    have member := List.mem_of_getLast? last
    rw [components, List.mem_append] at member
    rcases member with first | later
    · unfold leading at first
      split at first <;> simp at first
    · obtain ⟨segment, member, counts⟩ := List.mem_filterMap.mp later
      rw [Component.ofSegment?] at counts
      split at counts
      · cases counts
      · next nonempty =>
        split at counts
        · cases counts
        · cases counts
          exact ⟨member, fun empty => nonempty (.inl empty)⟩
  · cases found

end Path

/-! Java files -/

namespace Document

/-- The file name of a Java document is its stem with the extension. The stem is not empty, and it is
one segment of a path. -/
theorem fileName_eq_of_isJava {d : Document} (java : d.isJava = true) :
    d.fileName = d.stem ++ ".java" ∧ d.stem ≠ "" ∧ '/' ∉ d.stem.toList := by
  rw [isJava, beq_iff_eq, Option.bind_eq_some_iff] at java
  obtain ⟨name, found, extension⟩ := java
  have single := Path.not_mem_of_mem_segments (Path.mem_segments_of_fileName? found).1
  rw [Path.extensionOf?] at extension
  cases split : Path.splitAtLastDot name with
  | none =>
    rw [split] at extension
    cases extension
  | some parts =>
    obtain ⟨stem, suffix⟩ := parts
    rw [split] at extension
    cases stem with
    | nil => cases extension
    | cons c rest =>
      cases extension
      have whole := Path.eq_of_splitAtLastDot split
      have stem : Path.stemOf name = c :: rest := by rw [Path.stemOf, split]
      simp only [fileName, Document.stem, found, Option.map_some, Option.getD_some, stem]
      rw [whole] at single ⊢
      refine ⟨?_, ?_, ?_⟩
      · rw [show ".java" = String.ofList ['.', 'j', 'a', 'v', 'a'] from rfl, ← String.ofList_append]
      · exact fun empty => by simpa using congrArg String.toList empty
      · rw [String.toList_ofList]
        exact fun member => single (List.mem_append_left _ member)

end Document

end CostWatch

import CostWatch.Proofs.Change.Fingerprints
import CostWatch.Proofs.Change.Normal

/-!
Tokens are kept by the normal form.

Gaps between tokens are left out of the normal form, so that two tokens may stand there as another
one: `+ ++` and `++ +` have the same normal form. Where no token of the normal form goes over a
gap, the normal form has the tokens of the text and no others.
-/

set_option autoImplicit false

namespace CostWatch
namespace Normal

open Java

def StaysLongest : List Segment → Prop
  | [] => True
  | .token t :: rest =>
    (IsToken t ∧ ∀ s ∈ (t ++ layOut t.getLast? false rest).inits, IsToken s →
      s.length ≤ t.length) ∧ StaysLongest rest
  | .space _ :: rest | .lineComment _ :: rest | .blockComment _ :: rest => StaysLongest rest

def untilGap : List Segment → List Char
  | .token t :: rest => t ++ untilGap rest
  | _ => []

/-- No token of the normal form begins with one of the text and goes over a gap after it. -/
def GapsHold : List Segment → Prop
  | [] => True
  | .token t :: rest =>
    (∀ s ∈ (t ++ layOut t.getLast? false rest).inits, IsToken s →
      s.length ≤ (t ++ untilGap rest).length) ∧ GapsHold rest
  | .space _ :: rest | .lineComment _ :: rest | .blockComment _ :: rest => GapsHold rest

def GapsHold.decide : (segments : List Segment) → Decidable (GapsHold segments)
  | [] => .isTrue trivial
  | .token t :: rest =>
    @instDecidableAnd (∀ s ∈ (t ++ layOut t.getLast? false rest).inits, IsToken s →
      s.length ≤ (t ++ untilGap rest).length) (GapsHold rest) _ (GapsHold.decide rest)
  | .space _ :: rest | .lineComment _ :: rest | .blockComment _ :: rest => GapsHold.decide rest

instance (segments : List Segment) : Decidable (GapsHold segments) := GapsHold.decide segments

theorem untilGap_textOf (segments : List Segment) : untilGap segments <+: textOf segments := by
  induction segments with
  | nil => exact List.prefix_rfl
  | cons segment rest ih =>
    cases segment with
    | token t => exact (List.prefix_append_right_inj t).mpr ih
    | _ => exact List.nil_prefix

theorem untilGap_layOut (last : Option Char) (segments : List Segment) :
    untilGap segments <+: layOut last false segments := by
  induction segments generalizing last with
  | nil => exact List.prefix_rfl
  | cons segment rest ih =>
    cases segment with
    | token t => exact (List.prefix_append_right_inj t).mpr (ih t.getLast?)
    | _ => exact List.nil_prefix

/-- Up to a gap, the normal form is the text itself. -/
theorem staysLongest_of_gapsHold {segments : List Segment} (reads : Reads segments)
    (hold : GapsHold segments) : StaysLongest segments := by
  induction segments with
  | nil => trivial
  | cons segment rest ih =>
    cases segment with
    | token t =>
      refine ⟨⟨reads.1.token, fun s start token => ?_⟩, ih reads.2 hold.2⟩
      have beforeGap : s <+: t ++ untilGap rest :=
        List.prefix_of_prefix_length_le ((List.mem_inits _ _).mp start)
          ((List.prefix_append_right_inj t).mpr (untilGap_layOut t.getLast? rest))
          (hold.1 s start token)
      have inText : s <+: t ++ textOf rest :=
        beforeGap.trans ((List.prefix_append_right_inj t).mpr (untilGap_textOf rest))
      exact reads.1.longest s ((List.mem_inits _ _).mpr inText) token
    | space _ => exact ih reads.2 hold
    | lineComment _ => exact ih reads.2 hold
    | blockComment _ => exact ih reads.2 hold

/-! Texts with the same normal form -/

theorem tokens_of_layOut_nil {last : Option Char} {gap : Bool} {segments : List Segment}
    (stays : StaysLongest segments) (same : layOut last gap segments = []) :
    tokens segments = [] := by
  induction segments generalizing gap with
  | nil => rfl
  | cons segment rest ih =>
    cases segment with
    | token t =>
      have ⟨front, _⟩ := List.append_eq_nil_iff.mp same
      exact absurd (List.append_eq_nil_iff.mp front).2 stays.1.1.ne_nil
    | space _ => exact ih stays same
    | lineComment _ => exact ih stays same
    | blockComment _ => exact ih stays same

theorem append_eq_of_blanks {p q : Prop} [Decidable p] [Decidable q] {t u cs ds : List Char}
    (token : IsToken t) (other : IsToken u)
    (same : (if p then [' '] else []) ++ t ++ cs = (if q then [' '] else []) ++ u ++ ds) :
    t ++ cs = u ++ ds := by
  have noBlank {s es fs : List Char} (token : IsToken s) : s ++ es ≠ ' ' :: fs := by
    intro same
    cases s with
    | nil => exact token.ne_nil rfl
    | cons c s => exact token.head_ne_blank (List.cons.inj same).1
  split at same <;> split at same
  · exact (List.cons.inj same).2
  · exact absurd same.symm (noBlank other)
  · exact absurd same (noBlank token)
  · exact same

theorem eq_of_longest {t u cs ds : List Char} (same : t ++ cs = u ++ ds)
    (token : IsToken t) (longest : ∀ s ∈ (t ++ cs).inits, IsToken s → s.length ≤ t.length)
    (other : IsToken u) (also : ∀ s ∈ (u ++ ds).inits, IsToken s → s.length ≤ u.length) :
    t = u ∧ cs = ds := by
  have long : t.length ≤ u.length :=
    also t ((List.mem_inits _ _).mpr (same ▸ List.prefix_append t cs)) token
  have short : u.length ≤ t.length :=
    longest u ((List.mem_inits _ _).mpr (same ▸ List.prefix_append u ds)) other
  exact List.append_inj same (Nat.le_antisymm long short)

theorem tokens_of_layOut_cons {last : Option Char} {gap other : Bool} {t : List Char}
    {rest segments : List Segment} (stays : StaysLongest (.token t :: rest))
    (also : StaysLongest segments)
    (same : layOut last gap (.token t :: rest) = layOut last other segments) :
    ∃ rest', StaysLongest rest' ∧ tokens segments = t :: tokens rest' ∧
      layOut t.getLast? false rest = layOut t.getLast? false rest' := by
  induction segments generalizing other with
  | nil =>
    have ⟨front, _⟩ := List.append_eq_nil_iff.mp same
    exact absurd (List.append_eq_nil_iff.mp front).2 stays.1.1.ne_nil
  | cons segment segments ih =>
    cases segment with
    | token u =>
      have same := append_eq_of_blanks stays.1.1 also.1.1 same
      obtain ⟨rfl, after⟩ := eq_of_longest same stays.1.1 stays.1.2 also.1.1 also.1.2
      exact ⟨segments, also.2, rfl, after⟩
    | space _ => exact ih also same
    | lineComment _ => exact ih also same
    | blockComment _ => exact ih also same

theorem tokens_eq_of_layOut {last : Option Char} {gap gap' : Bool}
    {segments segments' : List Segment} (stays : StaysLongest segments)
    (also : StaysLongest segments')
    (same : layOut last gap segments = layOut last gap' segments') :
    tokens segments = tokens segments' := by
  induction segments generalizing last gap gap' segments' with
  | nil => exact (tokens_of_layOut_nil also same.symm).symm
  | cons segment rest ih =>
    cases segment with
    | token t =>
      obtain ⟨rest', later, begins, after⟩ := tokens_of_layOut_cons stays also same
      rw [begins, ← ih stays.2 later after]
      rfl
    | space _ => exact ih stays also same
    | lineComment _ => exact ih stays also same
    | blockComment _ => exact ih stays also same

end Normal

open Java

/-! Edits of bodies -/

/-- A body whose tokens can be told from its normal form: no text block in it has three quotation
marks in a row inside, and no token goes over a gap once the gaps are left out. -/
structure Unmistakable (segments : List Segment) : Prop where
  reads : Reads segments
  clear : ∀ t ∈ tokens segments, Normal.isClear t = true
  gaps : Normal.GapsHold segments

theorem unmistakable_iff {segments : List Segment} :
    Unmistakable segments ↔
      Reads segments ∧ (∀ t ∈ tokens segments, Normal.isClear t = true) ∧
        Normal.GapsHold segments :=
  ⟨fun plain => ⟨plain.reads, plain.clear, plain.gaps⟩,
    fun ⟨reads, clear, gaps⟩ => ⟨reads, clear, gaps⟩⟩

instance (segments : List Segment) : Decidable (Unmistakable segments) :=
  decidable_of_iff _ unmistakable_iff.symm

theorem Unmistakable.tokens_eq {segments other : List Segment} (plain : Unmistakable segments)
    (also : Unmistakable other)
    (same : Normal.normalize (bodyOf segments) = Normal.normalize (bodyOf other)) :
    tokens segments = tokens other := by
  have laidOut {segments : List Segment} (plain : Unmistakable segments) :
      Normal.normalize (bodyOf segments) = String.ofList (Normal.layOut none false segments) :=
    Normal.normalize_bodyOf (Normal.splits_of_reads plain.reads) plain.clear
  rw [laidOut plain, laidOut also, String.ofList_inj] at same
  exact Normal.tokens_eq_of_layOut (Normal.staysLongest_of_gapsHold plain.reads plain.gaps)
    (Normal.staysLongest_of_gapsHold also.reads also.gaps) same

/-- An edit that changes the tokens of a body changes its normal form, and is found in whatever text
the body stands, if the two normal forms are no collision of digests. -/
theorem token_change_seen {old new : List Segment} (plain : Unmistakable old)
    (also : Unmistakable new) :
    (Normal.normalize (bodyOf old) = Normal.normalize (bodyOf new) → tokens old = tokens new) ∧
    (tokens old ≠ tokens new →
      Digest.Collision (Text.Utf8.encode (Normal.normalize (bodyOf old)))
        (Text.Utf8.encode (Normal.normalize (bodyOf new))) ∨
      fingerprint (bodyOf old) ≠ fingerprint (bodyOf new) ∧
      ∀ (extract : Extractor) (baseline current name : String) (k : Nat) (whitelist : Whitelist),
        Extractor.HasBody extract baseline name k (bodyOf old) →
        Extractor.HasBody extract current name k (bodyOf new) →
        whitelist.contains name = false →
        name ∈ (Change.check extract baseline current whitelist).changed ∧
          (Change.check extract baseline current whitelist).isSignificant = true) := by
  refine ⟨plain.tokens_eq also, fun edited => ?_⟩
  have differ : Normal.normalize (bodyOf old) ≠ Normal.normalize (bodyOf new) :=
    fun same => edited (plain.tokens_eq also same)
  by_cases prints : fingerprint (bodyOf old) = fingerprint (bodyOf new)
  · exact .inl (collision_of_fingerprint_eq differ prints)
  · refine .inr ⟨prints, fun extract baseline current name k whitelist was is counts => ?_⟩
    have reported := Change.mem_changed_check counts was is prints
    exact ⟨reported, Change.isSignificant_of_mem_changed reported⟩

namespace Sample

def token (text : String) : Segment := .token text.toList

def blank : Segment := .space [' ']

def extractWhole : Extractor := fun text =>
  let range : Range := ⟨⟨0, 0⟩, ⟨0, 1⟩⟩
  .ok [⟨"f", range, range, some ⟨0, text.utf8ByteSize⟩⟩]

def sum : List Segment :=
  [token "return", blank, token "a", blank, token "+", blank, token "b", token ";"]

def difference : List Segment :=
  [token "return", blank, token "a", blank, .blockComment " c */".toList, token "-", blank,
    token "b", token ";"]

def sumOfNext : List Segment :=
  [token "return", blank, token "a", blank, token "+", blank, token "++", token "b", token ";"]

def sumThenNext : List Segment :=
  [token "return", blank, token "a", token "++", blank, token "+", blank, token "b", token ";"]

end Sample

open Sample

theorem operator_change_seen :
    tokens sum ≠ tokens difference ∧
      Normal.normalize (bodyOf sum) ≠ Normal.normalize (bodyOf difference) ∧
      fingerprint (bodyOf sum) ≠ fingerprint (bodyOf difference) ∧
      "f" ∈ (Change.check extractWhole (bodyOf sum) (bodyOf difference) .empty).changed := by
  have edited : tokens sum ≠ tokens difference := by decide +kernel
  have seen := token_change_seen (show Unmistakable sum by decide +kernel)
    (show Unmistakable difference by decide +kernel)
  have apart : fingerprint (bodyOf sum) ≠ fingerprint (bodyOf difference) := by decide +kernel
  obtain ⟨_, found⟩ := (seen.2 edited).resolve_left fun collision => apart collision.2
  have was : Extractor.HasBody extractWhole (bodyOf sum) "f" 0 (bodyOf sum) :=
    ⟨_, _, rfl, rfl, by decide +kernel⟩
  have is : Extractor.HasBody extractWhole (bodyOf difference) "f" 0 (bodyOf difference) :=
    ⟨_, _, rfl, rfl, by decide +kernel⟩
  exact ⟨edited, fun same => edited (seen.1 same), apart,
    (found extractWhole _ _ "f" 0 .empty was is (by decide)).1⟩

/-- Two plus signs and one read as one and two once the blank is gone. -/
theorem token_change_lost :
    Reads sumOfNext ∧ Reads sumThenNext ∧ tokens sumOfNext ≠ tokens sumThenNext ∧
      Normal.normalize (bodyOf sumOfNext) = Normal.normalize (bodyOf sumThenNext) ∧
      (Change.check extractWhole (bodyOf sumThenNext) (bodyOf sumOfNext) .empty).isSignificant =
        false := by
  decide +kernel

end CostWatch

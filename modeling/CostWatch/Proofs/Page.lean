import CostWatch.Page
import Mathlib.Data.List.Forall2

/-!
What is read off a page.

A page is read here as a browser does: a tag is what stands between `<` and the next `>`, and in the
text between two tags the five entities stand for their characters. Whatever the records of a page
contain, its tags are those of the page, and each record that is shown has one block of its own.
-/

set_option autoImplicit false

namespace CostWatch.Page

/-! Entities -/

def entities : List (List Char) :=
  ["&amp;".toList, "&lt;".toList, "&gt;".toList, "&quot;".toList, "&#39;".toList]

/-- The text that is meant, with the characters for their entities. -/
def unescapeList : List Char → List Char
  | '&' :: 'a' :: 'm' :: 'p' :: ';' :: cs => '&' :: unescapeList cs
  | '&' :: 'l' :: 't' :: ';' :: cs => '<' :: unescapeList cs
  | '&' :: 'g' :: 't' :: ';' :: cs => '>' :: unescapeList cs
  | '&' :: 'q' :: 'u' :: 'o' :: 't' :: ';' :: cs => '"' :: unescapeList cs
  | '&' :: '#' :: '3' :: '9' :: ';' :: cs => '\'' :: unescapeList cs
  | c :: cs => c :: unescapeList cs
  | [] => []

def unescape (s : String) : String :=
  String.ofList (unescapeList s.toList)

theorem unescapeList_cons {c : Char} (plain : c ≠ '&') (cs : List Char) :
    unescapeList (c :: cs) = c :: unescapeList cs := by
  rw [unescapeList] <;> rintro _ rfl <;> exact absurd rfl plain

theorem unescapeList_escapeChar (c : Char) (cs : List Char) :
    unescapeList (escapeChar c ++ cs) = c :: unescapeList cs := by
  fun_cases escapeChar c
  case case6 plain _ _ _ _ => exact unescapeList_cons plain cs
  all_goals rfl

theorem unescapeList_escapeList (cs : List Char) : unescapeList (escapeList cs) = cs := by
  induction cs with
  | nil => rfl
  | cons c cs ih =>
    rw [escapeList, List.flatMap_cons, unescapeList_escapeChar]
    exact congrArg (c :: ·) ih

theorem unescape_escape (s : String) : unescape (escape s) = s := by
  rw [unescape, escape, String.toList_ofList, unescapeList_escapeList, String.ofList_toList]

def delimiters : List Char := ['<', '>', '"', '\'']

theorem escapeChar_cases (c : Char) :
    (c ≠ '&' ∧ c ∉ delimiters ∧ escapeChar c = [c]) ∨ escapeChar c ∈ entities := by
  fun_cases escapeChar c
  case case6 => exact .inl (by simp_all [delimiters])
  all_goals exact .inr (by decide)

theorem not_mem_escapeList (cs : List Char) {d : Char} (delimits : d ∈ delimiters) :
    d ∉ escapeList cs := by
  intro member
  obtain ⟨c, _, own⟩ := List.mem_flatMap.mp member
  have free : ∀ entity ∈ entities, ∀ d ∈ delimiters, d ∉ entity := by
    simp [entities, delimiters]
  rcases escapeChar_cases c with ⟨_, plain, same⟩ | entity
  · rw [same, List.mem_singleton] at own
    exact plain (own ▸ delimits)
  · exact free _ entity d delimits own

theorem suffix_of_not_mem {α : Type} {a : α} {front rest back : List α} (other : a ∉ front)
    (ends : a :: back <:+ front ++ rest) : a :: back <:+ rest := by
  induction front with
  | nil => exact ends
  | cons b front ih =>
    rw [List.mem_cons, not_or] at other
    rcases List.suffix_cons_iff.mp ends with same | ends
    · exact absurd (List.cons.inj same).1 other.1
    · exact ih other.2 ends

theorem entity_of_ampersand {cs back : List Char} (ends : '&' :: back <:+ escapeList cs) :
    ∃ entity ∈ entities, entity <+: '&' :: back := by
  induction cs with
  | nil => cases List.suffix_nil.mp ends
  | cons c cs ih =>
    rw [escapeList, List.flatMap_cons, ← escapeList] at ends
    rcases escapeChar_cases c with ⟨other, _, same⟩ | member
    · rw [same] at ends
      exact ih (suffix_of_not_mem (by simpa using other.symm) ends)
    · have shape : ∀ entity ∈ entities, entity.head? = some '&' ∧ '&' ∉ entity.tail := by decide
      obtain ⟨first, once⟩ := shape _ member
      obtain ⟨body, entity⟩ := List.head?_eq_some_iff.mp first
      rw [entity, List.cons_append] at ends
      rcases List.suffix_cons_iff.mp ends with whole | ends
      · exact ⟨_, member, escapeList cs, by rw [whole, entity, List.cons_append]⟩
      · exact ih (suffix_of_not_mem (by simpa [entity] using once) ends)

/-! Elements -/

/-- A tag, with what it holds besides its name, and the text up to the next tag. -/
structure Element where
  tag : String
  text : String
  deriving DecidableEq

def Element.written (e : Element) : List Char :=
  '<' :: e.tag.toList ++ '>' :: escapeList e.text.toList

/-- What is written after the `<` of an element, read back. -/
def Element.read (piece : List Char) : Element :=
  ⟨String.ofList (piece.takeWhile (· ≠ '>')),
    String.ofList (unescapeList (piece.dropWhile (· ≠ '>')).tail)⟩

/-- The elements of a page, without what stands before the first tag. -/
def elements (page : String) : List Element :=
  (page.toList.splitOn '<').tail.map Element.read

def tags (page : String) : List String :=
  (elements page).map Element.tag

/-- What stands between the rules of a page, each time the elements from one rule to the next. -/
def blocks (page : String) : List (List Element) :=
  ((elements page).splitOnP (·.tag = "hr")).tail.dropLast

section
variable {α β : Type}

theorem splitOnP_parts (p : α → Bool) (sep : β → α) {part : β → List α} {front : List α}
    {bs : List β} (separates : ∀ b ∈ bs, p (sep b) = true)
    (free : ∀ a ∈ front, p a = false) (free' : ∀ b ∈ bs, ∀ a ∈ part b, p a = false) :
    (front ++ bs.flatMap fun b => sep b :: part b).splitOnP p = front :: bs.map part := by
  induction bs generalizing front with
  | nil => rw [List.flatMap_nil, List.append_nil, List.splitOnP_eq_singleton free, List.map_nil]
  | cons b bs ih =>
    rw [List.forall_mem_cons] at separates free'
    rw [List.flatMap_cons, List.cons_append,
      List.splitOnP_append_cons_of_forall_mem free _ separates.1, ih separates.2 free'.1 free'.2,
      List.map_cons]

end

def Element.Closed (e : Element) : Prop :=
  '<' ∉ e.tag.toList ∧ '>' ∉ e.tag.toList

theorem Element.read_written {e : Element} (closed : e.Closed) :
    read (e.tag.toList ++ '>' :: escapeList e.text.toList) = e := by
  have inside : ∀ c ∈ e.tag.toList, decide (c ≠ '>') = true := fun c member =>
    decide_eq_true fun same => closed.2 (same ▸ member)
  rw [read, List.takeWhile_append_of_pos inside, List.dropWhile_append_of_pos inside]
  simp [unescapeList_escapeList]

theorem elements_written {es : List Element} (closed : ∀ e ∈ es, e.Closed) :
    elements (String.ofList (es.flatMap Element.written)) = es := by
  have free : ∀ e ∈ es, ∀ c ∈ e.tag.toList ++ '>' :: escapeList e.text.toList,
      (c == '<') = false := by
    rintro e member c own
    refine beq_false_of_ne ?_
    rintro rfl
    rcases List.mem_append.mp own with tag | text
    · exact (closed e member).1 tag
    · rcases List.mem_cons.mp text with same | text
      · exact absurd same (by decide)
      · exact not_mem_escapeList _ (by decide) text
  have parts := splitOnP_parts (· == '<') (fun _ => '<') (fun _ _ => rfl) (List.forall_mem_nil _)
    free
  rw [elements, String.toList_ofList]
  refine (congrArg (·.tail.map Element.read) parts).trans ?_
  rw [List.tail_cons, List.map_map]
  exact (List.map_congr_left fun e member => Element.read_written (closed e member)).trans
    (List.map_id es)

/-! The elements of the pages -/

def costElements (r : Record) : List Element :=
  [⟨"div", "Allocation cost: " ++ r.allocation.polynomial ++ " : " ++ r.allocation.bigO⟩,
    ⟨"/div", "\n"⟩,
    ⟨"div", "Execution cost: " ++ r.execution.polynomial ++ " : " ++ r.execution.bigO⟩,
    ⟨"/div", "\n"⟩, ⟨"/div", "\n"⟩]

def blockOf (tag heading : String) (r : Record) : List Element :=
  [⟨tag, "\n"⟩, ⟨"h2", heading⟩, ⟨"/h2", "\n"⟩] ++ costElements r

def blockTag (selected : Bool) : String :=
  if selected then "div class=\"selected-method\"" else "div"

def hidden (hideInitializers : Bool) (r : Record) : Bool :=
  hideInitializers && r.isInitializer

def isSelected (selected : Option String) (r : Record) : Bool :=
  selected == some r.method

def overviewEntry (selected : Option String) (r : Record) : List Element :=
  blockOf (blockTag (isSelected selected r))
    (r.method ++ " (line " ++ toString r.location.line.toNat ++ ")") r

def historyEntry (latest : Bool) (r : Record) : List Element :=
  blockOf (blockTag false)
    (r.timestamp.getD "unknown time" ++ if latest then " (most recent)" else "") r

def opening : List Element :=
  [⟨"!DOCTYPE html", "\n"⟩, ⟨"html lang=\"en\"", "\n"⟩, ⟨"head", "\n  "⟩,
    ⟨"meta charset=\"UTF-8\"", "\n  "⟩,
    ⟨"meta name=\"viewport\" content=\"width=device-width, initial-scale=1.0\"", "\n  "⟩]

def frontOf (title : String) (style : List Element) (heading : String) : List Element :=
  opening ++ ⟨"title", title⟩ :: style ++
    [⟨"/head", "\n"⟩, ⟨"body", "\n  "⟩, ⟨"h1", heading⟩, ⟨"/h1", "\n  "⟩, ⟨"div", "\n    "⟩]

def overviewFront : List Element :=
  frontOf overviewTitle [⟨"/title", "\n  "⟩, ⟨"style", "\n" ++ selectedStyle ++ "\n  "⟩,
    ⟨"/style", "\n"⟩] overviewTitle

def historyFront (latest : Record) : List Element :=
  frontOf historyTitle [⟨"/title", "\n"⟩]
    (historyTitle ++ " for: " ++ latest.method ++
      " (line " ++ toString latest.location.line.toNat ++ ")")

def closing : List Element :=
  [⟨"/div", "\n"⟩, ⟨"/body", "\n"⟩, ⟨"/html", "\n"⟩]

/-- Blocks, each with the rule before it, and the rule behind the last one. -/
def ruled (entries : List (List Element)) : List (Element × List Element) :=
  entries.map (⟨"hr", "\n"⟩, ·) ++ [(⟨"hr", "\n  "⟩, closing)]

def pageOf (front : List Element) (entries : List (List Element)) : List Element :=
  front ++ (ruled entries).flatMap fun part => part.1 :: part.2

def overviewElements (records : List Record) (selected : Option String) (hide : Bool) :
    List Element :=
  pageOf overviewFront ((records.filter (!hidden hide ·)).map (overviewEntry selected))

def historyElements (latest : Record) (older : List Record) : List Element :=
  pageOf (historyFront latest) (historyEntry true latest :: older.map (historyEntry false))

/-! Pages as they are written -/

theorem escapeList_append (cs cs' : List Char) :
    escapeList (cs ++ cs') = escapeList cs ++ escapeList cs' :=
  List.flatMap_append

theorem render_costLines (r : Record) :
    (costLines r).flatMap Piece.render ++ "</div>\n<hr>\n".toList =
      (costElements r).flatMap Element.written ++ "<hr>\n".toList := by
  simp only [costLines, costElements, List.flatMap_cons, List.flatMap_nil, Piece.render,
    Element.written, String.toList_append, escapeList_append, List.append_assoc, List.cons_append,
    List.nil_append]
  rfl

theorem render_overviewBlock (selected : Option String) (r : Record) :
    (overviewBlock (isSelected selected r) r).flatMap Piece.render =
      (overviewEntry selected r).flatMap Element.written ++ "<hr>\n".toList := by
  simp only [overviewBlock, overviewEntry, blockOf, blockTag, number, List.flatMap_append,
    List.flatMap_cons, List.flatMap_nil, List.append_nil, Piece.render, List.append_assoc,
    render_costLines, Element.written, String.toList_append, escapeList_append, List.cons_append]
  cases isSelected selected r <;> rfl

theorem render_historyBlock (latest : Bool) (r : Record) :
    (historyBlock latest r).flatMap Piece.render =
      (historyEntry latest r).flatMap Element.written ++ "<hr>\n".toList := by
  simp only [historyBlock, historyEntry, blockOf, blockTag, List.flatMap_append,
    List.flatMap_cons, List.flatMap_nil, List.append_nil, Piece.render, List.append_assoc,
    render_costLines, Element.written, String.toList_append, escapeList_append, List.cons_append]
  cases latest <;> rfl

/-- Blocks are written with the rules behind them, the first rule with the front. -/
theorem written_pageOf (front : List Element) (entries : List (List Element)) :
    (pageOf front entries).flatMap Element.written = front.flatMap Element.written ++
      ("<hr>\n".toList ++
        ((entries.flatMap fun entry => entry.flatMap Element.written ++ "<hr>\n".toList) ++
          "  </div>\n</body>\n</html>\n".toList)) := by
  rw [pageOf, List.flatMap_append]
  congr 1
  induction entries with
  | nil => rfl
  | cons entry entries ih =>
    rw [ruled, List.map_cons, List.cons_append, List.flatMap_cons, List.flatMap_append, ← ruled,
      ih, List.flatMap_cons, List.flatMap_cons]
    simp only [List.append_assoc]
    rfl

theorem written_opening :
    opening.flatMap Element.written ++ "<title>".toList =
      "<!DOCTYPE html>\n<html lang=\"en\">\n<head>\n  <meta charset=\"UTF-8\">\n  ".toList ++
        ("<meta name=\"viewport\" content=\"width=device-width, initial-scale=1.0\">\n  ".toList ++
          "<title>".toList) := by
  decide +kernel

theorem render_page {title headingText : String} {style heading body : List Piece}
    {head : List Element} {entries : List (List Element)}
    (plain : escapeList title.toList = title.toList)
    (styled : "</title>\n".toList ++ style.flatMap Piece.render = head.flatMap Element.written)
    (headed : heading.flatMap Piece.render = escapeList headingText.toList)
    (shown : body.flatMap Piece.render =
      entries.flatMap fun entry => entry.flatMap Element.written ++ "<hr>\n".toList) :
    (page title style heading body).flatMap Piece.render =
      (pageOf (frontOf title head headingText) entries).flatMap Element.written := by
  have titled : Element.written ⟨"title", title⟩ = "<title>".toList ++ title.toList := by
    simp only [Element.written, plain, List.cons_append]
    rfl
  rw [written_pageOf, frontOf, List.flatMap_append, List.flatMap_append, List.flatMap_cons,
    ← styled, titled, List.append_assoc "<title>".toList,
    ← List.append_assoc (opening.flatMap Element.written), written_opening, page]
  simp only [List.flatMap_cons, List.flatMap_append, List.flatMap_nil, headed, shown, Piece.render,
    Element.written, String.toList_append, List.append_assoc, List.append_nil, List.cons_append]
  rfl

theorem render_overview (records : List Record) (selected : Option String) (hide : Bool) :
    render (overview records selected hide) =
      String.ofList ((overviewElements records selected hide).flatMap Element.written) := by
  refine congrArg String.ofList (render_page ?_ ?_ ?_ ?_)
  · decide +kernel
  · decide +kernel
  · decide +kernel
  · rw [List.flatMap_assoc, List.flatMap_map]
    exact List.flatMap_congr fun r _ => render_overviewBlock selected r

theorem render_history (latest : Record) (older : List Record) :
    (history? (latest :: older)).map render =
      some (String.ofList ((historyElements latest older).flatMap Element.written)) := by
  refine congrArg (some ∘ String.ofList) (render_page ?_ ?_ ?_ ?_)
  · decide +kernel
  · decide +kernel
  · simp only [number, List.flatMap_cons, List.flatMap_nil, Piece.render, String.toList_append,
      escapeList_append, List.append_assoc]
    rfl
  · rw [List.flatMap_append, List.flatMap_assoc, List.flatMap_cons, List.flatMap_map,
      render_historyBlock]
    exact congrArg _ (List.flatMap_congr fun r _ => render_historyBlock false r)

/-! Pages as they are read -/

/-- Tags that end where they are meant to and of which none is a rule. -/
def Inner (tags : List String) : Prop :=
  ∀ tag ∈ tags, '<' ∉ tag.toList ∧ '>' ∉ tag.toList ∧ tag ≠ "hr"

instance (tags : List String) : Decidable (Inner tags) :=
  inferInstanceAs (Decidable (∀ tag ∈ tags, _))

def blockTags (selected : Bool) : List String :=
  [blockTag selected, "h2", "/h2", "div", "/div", "div", "/div", "/div"]

def frontTags (style : List String) : List String :=
  opening.map Element.tag ++ "title" :: style ++ ["/head", "body", "h1", "/h1", "div"]

def pageTags (front : List String) (entries : List (List String)) : List String :=
  front ++ entries.flatMap ("hr" :: ·) ++ "hr" :: closing.map Element.tag

theorem inner_blockTags (selected : Bool) : Inner (blockTags selected) := by
  cases selected <;> decide

section
variable {front : List Element} {entries : List (List Element)}

theorem tags_pageOf :
    (pageOf front entries).map Element.tag =
      pageTags (front.map Element.tag) (entries.map (List.map Element.tag)) := by
  simp [pageOf, ruled, pageTags, List.map_flatMap, List.flatMap_map]

theorem Inner.closed {part : List Element} (inner : Inner (part.map Element.tag)) {e : Element}
    (member : e ∈ part) : e.Closed ∧ e.tag ≠ "hr" :=
  have ⟨notOpen, notClose, notRule⟩ := inner e.tag (List.mem_map_of_mem member)
  ⟨⟨notOpen, notClose⟩, notRule⟩

theorem mem_ruled (inner : ∀ entry ∈ entries, Inner (entry.map Element.tag))
    {part : Element × List Element} (member : part ∈ ruled entries) :
    part.1.tag = "hr" ∧ Inner (part.2.map Element.tag) := by
  rcases List.mem_append.mp member with own | last
  · obtain ⟨entry, listed, rfl⟩ := List.mem_map.mp own
    exact ⟨rfl, inner entry listed⟩
  · rw [List.mem_singleton.mp last]
    decide

theorem elements_pageOf (inner : Inner (front.map Element.tag))
    (inner' : ∀ entry ∈ entries, Inner (entry.map Element.tag)) :
    elements (String.ofList ((pageOf front entries).flatMap Element.written)) =
      pageOf front entries := by
  have rule : '<' ∉ "hr".toList ∧ '>' ∉ "hr".toList := by decide
  refine elements_written fun e member => ?_
  rcases List.mem_append.mp member with own | behind
  · exact (inner.closed own).1
  · obtain ⟨part, listed, own⟩ := List.mem_flatMap.mp behind
    obtain ⟨ruled, innerPart⟩ := mem_ruled inner' listed
    rcases List.mem_cons.mp own with rfl | own
    · exact ⟨ruled ▸ rule.1, ruled ▸ rule.2⟩
    · exact (innerPart.closed own).1

theorem blocks_pageOf (inner : Inner (front.map Element.tag))
    (inner' : ∀ entry ∈ entries, Inner (entry.map Element.tag)) :
    blocks (String.ofList ((pageOf front entries).flatMap Element.written)) = entries := by
  have free : ∀ e ∈ front, decide (e.tag = "hr") = false := fun e member =>
    decide_eq_false (inner.closed member).2
  have free' : ∀ part ∈ ruled entries, ∀ e ∈ part.2, decide (e.tag = "hr") = false :=
    fun part listed e member => decide_eq_false ((mem_ruled inner' listed).2.closed member).2
  have parts := splitOnP_parts (fun e : Element => decide (e.tag = "hr")) Prod.fst
    (fun part listed => decide_eq_true (mem_ruled inner' listed).1) free free'
  rw [blocks, elements_pageOf inner inner', pageOf, parts, List.tail_cons, ruled, List.map_append,
    List.map_map]
  exact List.dropLast_concat.trans (List.map_id entries)

end

/-! Overviews -/

section
variable (records : List Record) (selected : Option String) (hide : Bool)

theorem inner_overviewFront : Inner (overviewFront.map Element.tag) := by
  decide

theorem inner_overviewEntries :
    ∀ entry ∈ (records.filter (!hidden hide ·)).map (overviewEntry selected),
      Inner (entry.map Element.tag) := by
  rintro _ member
  obtain ⟨r, _, rfl⟩ := List.mem_map.mp member
  exact inner_blockTags _

theorem blocks_overview :
    blocks (render (overview records selected hide)) =
      (records.filter (!hidden hide ·)).map (overviewEntry selected) := by
  rw [render_overview]
  exact blocks_pageOf inner_overviewFront (inner_overviewEntries records selected hide)

theorem tags_overview :
    tags (render (overview records selected hide)) = pageTags (overviewFront.map Element.tag)
      (((records.filter (!hidden hide ·)).map (isSelected selected)).map blockTags) := by
  rw [render_overview, overviewElements, tags,
    elements_pageOf inner_overviewFront (inner_overviewEntries records selected hide), tags_pageOf,
    List.map_map, List.map_map]
  rfl

end

/-- Records that are treated alike by two overviews. Whether a record is selected does not matter if
it is hidden. -/
structure Alike (selected selected' : Option String) (hide hide' : Bool) (r r' : Record) :
    Prop where
  treatment : hidden hide r = hidden hide' r'
  selection : hidden hide r = false → isSelected selected r = isSelected selected' r'

theorem selections_eq {selected selected' : Option String} {hide hide' : Bool}
    {records others : List Record}
    (alike : List.Forall₂ (Alike selected selected' hide hide') records others) :
    (records.filter (!hidden hide ·)).map (isSelected selected) =
      (others.filter (!hidden hide' ·)).map (isSelected selected') := by
  induction alike with
  | nil => rfl
  | @cons r r' records others alike _ ih =>
    rw [List.filter_cons, List.filter_cons, ← alike.treatment]
    cases treated : hidden hide r with
    | true => exact ih
    | false => exact congrArg₂ List.cons (alike.selection treated) ih

/-! Histories -/

section
variable (latest : Record) (older : List Record)

theorem inner_historyFront : Inner ((historyFront latest).map Element.tag) := by
  have tags : (historyFront latest).map Element.tag = frontTags ["/title"] := rfl
  rw [tags]
  decide

theorem inner_historyEntries :
    ∀ entry ∈ historyEntry true latest :: older.map (historyEntry false),
      Inner (entry.map Element.tag) := by
  refine List.forall_mem_cons.mpr ⟨inner_blockTags false, fun entry member => ?_⟩
  obtain ⟨r, _, rfl⟩ := List.mem_map.mp member
  exact inner_blockTags false

theorem blocks_history :
    (history? (latest :: older)).map (blocks ∘ render) =
      some (historyEntry true latest :: older.map (historyEntry false)) := by
  rw [← Option.map_map, render_history]
  exact congrArg some
    (blocks_pageOf (inner_historyFront latest) (inner_historyEntries latest older))

/-- The tags of the page of a history only depend on how long it is. -/
theorem tags_history :
    (history? (latest :: older)).map (tags ∘ render) =
      some (pageTags (frontTags ["/title"])
        (List.replicate (older.length + 1) (blockTags false))) := by
  rw [← Option.map_map, render_history, historyElements, Option.map_some, tags,
    elements_pageOf (inner_historyFront latest) (inner_historyEntries latest older), tags_pageOf,
    List.map_cons, List.map_map, List.replicate_succ, ← List.map_const]
  rfl

end

/-- No text of a record becomes markup. The tags of an overview are the same for all records that
are treated alike, and those of the page of a history for all histories of one length. A text as it
is shown has no delimiter, each ampersand in it begins an entity, and it decodes to the text itself,
so that no two texts are shown alike. A page has one block for each record that is not hidden, in
the order of the records, which reads as the record does. -/
theorem markup_fixed :
    (∀ (selected selected' : Option String) (hide hide' : Bool) (records others : List Record),
      List.Forall₂ (Alike selected selected' hide hide') records others →
      tags (render (overview records selected hide)) =
        tags (render (overview others selected' hide'))) ∧
    (∀ history history' : History, history.length = history'.length →
      (history? history).map (tags ∘ render) = (history? history').map (tags ∘ render)) ∧
    (∀ s : String, (∀ d ∈ delimiters, d ∉ (escape s).toList) ∧
      (∀ back, '&' :: back <:+ (escape s).toList →
        ∃ entity ∈ entities, entity <+: '&' :: back) ∧
      unescape (escape s) = s ∧ ∀ t, escape s = escape t → s = t) ∧
    (∀ (records : List Record) (selected : Option String) (hide : Bool),
      blocks (render (overview records selected hide)) =
        (records.filter (!hidden hide ·)).map (overviewEntry selected)) ∧
    ∀ (latest : Record) (older : List Record),
      (history? (latest :: older)).map (blocks ∘ render) =
        some (historyEntry true latest :: older.map (historyEntry false)) := by
  refine ⟨?_, ?_, ?_, blocks_overview, blocks_history⟩
  · intro selected selected' hide hide' records others alike
    rw [tags_overview, tags_overview, selections_eq alike]
  · rintro (_ | ⟨latest, older⟩) (_ | ⟨latest', older'⟩) length
    · rfl
    · cases length
    · cases length
    · rw [tags_history, tags_history, Nat.succ.inj length]
  · intro s
    have shown : (escape s).toList = escapeList s.toList := String.toList_ofList
    refine ⟨?_, ?_, unescape_escape s, fun t same => ?_⟩
    · exact fun d delimits => shown ▸ not_mem_escapeList s.toList delimits
    · exact fun back ends => entity_of_ampersand (shown ▸ ends)
    · rw [← unescape_escape s, same, unescape_escape]

/-- A record of which every text that is shown looks like markup. -/
def hostile : Record :=
  let cost := ⟨"1</div><script>", some 1, "\"><b>&amp;"⟩
  ⟨⟨"A.java:</h2>"⟩, "</h2><h2 class='x'>", ⟨"A.java", 1⟩, cost, cost, some "<hr>"⟩

def harmless : Record :=
  let cost := ⟨"n", some 1, "O(n)"⟩
  ⟨⟨"A.java:f"⟩, "f", ⟨"A.java", 12⟩, cost, cost, none⟩

theorem markup_fixed_hostile :
    List.Forall₂ (Alike (some hostile.method) (some harmless.method) true false)
      [hostile] [harmless] ∧
    tags (render (overview [hostile] (some hostile.method) true)) =
      tags (render (overview [harmless] (some harmless.method) false)) ∧
    (history? [hostile, harmless]).map (tags ∘ render) =
      (history? [harmless, hostile]).map (tags ∘ render) :=
  have alike : List.Forall₂ (Alike (some hostile.method) (some harmless.method) true false)
      [hostile] [harmless] :=
    .cons ⟨by decide, by decide⟩ .nil
  ⟨alike, markup_fixed.1 _ _ _ _ _ _ alike, markup_fixed.2.1 _ _ rfl⟩

end CostWatch.Page

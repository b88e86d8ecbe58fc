import CostWatch.Json.Schema
import CostWatch.Proofs.Json.Reads

/-!
What a schema writes it reads back, however the text is laid out.

`Spells` relates a value to the texts that stand for it: blanks may stand around every item, as the
compact and the indented form need it. The reader of a schema takes such a text of what the schema
writes to the same data again, at any depth that allows for the arrays and objects in it.
-/

set_option autoImplicit false

namespace CostWatch.Json

open Reader

/-! Texts of values -/

mutual

/-- A text stands for a value, in one of the forms in which values are printed. -/
inductive Spells : Value → List Char → Prop where
  | null : Spells .null ['n', 'u', 'l', 'l']
  | yes : Spells (.boolean true) ['t', 'r', 'u', 'e']
  | no : Spells (.boolean false) ['f', 'a', 'l', 's', 'e']
  | number (n : Number) : Spells (.number n) n.shown.toList
  | text (s : String) : Spells (.text s) (printString s)
  | array {items : List Value} {texts : List (List Char)} {cs : List Char} :
      SpellsItems items texts → Row texts cs → Spells (.array items) ('[' :: (cs ++ [']']))
  | object {entries : List (String × Value)} {texts : List (String × List Char)} {cs : List Char} :
      SpellsEntries entries texts → Row (texts.map entryText) cs →
      Spells (.object entries) ('\x7b' :: (cs ++ ['\x7d']))

inductive SpellsItems : List Value → List (List Char) → Prop where
  | nil : SpellsItems [] []
  | cons {v : Value} {items : List Value} {text : List Char} {texts : List (List Char)} :
      Spells v text → SpellsItems items texts → SpellsItems (v :: items) (text :: texts)

inductive SpellsEntries : List (String × Value) → List (String × List Char) → Prop where
  | nil : SpellsEntries [] []
  | cons {key : String} {v : Value} {entries : List (String × Value)} {blanks gap text : List Char}
      {texts : List (String × List Char)} :
      Blank blanks → Blank gap → Spells v text → SpellsEntries entries texts →
      SpellsEntries ((key, v) :: entries) ((key, blanks ++ ':' :: (gap ++ text)) :: texts)

end

theorem SpellsEntries.keys {entries : List (String × Value)} {texts : List (String × List Char)}
    (spelled : SpellsEntries entries texts) : texts.map (·.1) = entries.map (·.1) := by
  induction texts generalizing entries with
  | nil => cases spelled; rfl
  | cons text texts ih =>
    cases spelled with
    | cons _ _ _ rest => rw [List.map_cons, List.map_cons, ih rest]

/-! Data that can be read back -/

def Fields.keys : Fields → List String
  | .nil => []
  | .cons key _ _ rest => key :: rest.keys

mutual

/-- How many arrays and objects are inside one another in what a schema describes. -/
def Schema.height : Schema → Nat
  | .list s => s.height + 1
  | .record _ fields => fields.height + 1
  | .nullable s => s.height
  | .boolean | .text _ | .natural _ _ | .integer | .any | .name _ | .either _ _ _ => 0

def Fields.height : Fields → Nat
  | .nil => 0
  | .cons _ _ schema rest => max schema.height rest.height

end

mutual

/-- Data that its schema reads back. Nothing is said of integers below zero, of schemas that leave
the form open, and of values that may be null twice over. -/
def Schema.Readable : (s : Schema) → s.Data → Prop
  | .boolean, _ => True
  | .text _, _ => True
  | .natural greatest _, (n : Nat) => n ≤ greatest ∧ greatest ≤ Text.maxWord64
  | .nullable s, d => s.absent? = none ∧ ∀ a : s.Data, (d : Option s.Data) = some a → s.Readable a
  | .list s, d => ∀ a, List.Mem a (d : List s.Data) → s.Readable a
  | .name names, (name : String) => name ∈ names
  | .record _ fields, d => fields.keys.Nodup ∧ fields.Readable d
  | .integer, _ | .any, _ | .either _ _ _, _ => False

def Fields.Readable : (fields : Fields) → fields.Data → Prop
  | .nil, _ => True
  | .cons _ .required schema rest, (a, others) => schema.Readable a ∧ rest.Readable others
  | .cons _ .optional schema rest, (found, others) =>
    (∀ a : schema.Data, (found : Option schema.Data) = some a → schema.Readable a) ∧
      rest.Readable others

end

/-! Fields -/

def Fields.found : (fields : Fields) → fields.Data → fields.Partial
  | .nil, _ => ()
  | .cons _ .required _ rest, (a, others) => (some a, rest.found others)
  | .cons _ .optional _ rest, (found, others) => (found, rest.found others)

theorem Fields.finish_found : (fields : Fields) → (d : fields.Data) →
    fields.finish (fields.found d) = .ok d
  | .nil, () => rfl
  | .cons _ .required _ rest, (a, others) => by
    change (rest.finish (rest.found others)).map (a, ·) = _
    rw [rest.finish_found others]
    rfl
  | .cons _ .optional _ rest, (found, others) => by
    change (rest.finish (rest.found others)).map (found, ·) = _
    rw [rest.finish_found others]
    rfl

theorem Fields.keys_write : (fields : Fields) → (d : fields.Data) →
    ∀ entry ∈ fields.write d, entry.1 ∈ fields.keys
  | .nil, (), _, member => absurd member List.not_mem_nil
  | .cons key .required schema rest, (a, others), entry, member => by
    rcases List.mem_cons.mp member with rfl | later
    · exact List.mem_cons_self
    · exact List.mem_cons_of_mem key (rest.keys_write others entry later)
  | .cons key .optional schema rest, (some a, others), entry, member => by
    rcases List.mem_cons.mp member with rfl | later
    · exact List.mem_cons_self
    · exact List.mem_cons_of_mem key (rest.keys_write others entry later)
  | .cons key .optional schema rest, (.none, others), entry, member =>
    List.mem_cons_of_mem key (rest.keys_write others entry member)

/-- Entries for other fields pass over the first one. -/
theorem Fields.takes_over {key : String} {need : Need} {schema : Schema} {rest : Fields}
    {depth : Nat} {texts : List (String × List Char)} {before after : rest.Partial}
    (found : Option schema.Data) (takes : Takes rest.readEntry depth texts before after)
    (other : ∀ text ∈ texts, text.1 ≠ key) :
    Takes (Fields.cons key need schema rest).readEntry depth texts (found, before)
      (found, after) := by
  induction takes with
  | nil state => exact .nil _
  | @cons k text texts before between after read takes ih =>
    obtain ⟨notKey, other⟩ := List.forall_mem_cons.mp other
    refine .cons (fun more ends => ?_) (ih other)
    refine (?_ : Reads (if k = key then _ else _) depth _ _ _)
    rw [if_neg notKey]
    exact (read more ends).bind (reads_pure _)

theorem Fields.keys_ne {key : String} {rest : Fields} {others : rest.Data}
    {texts : List (String × List Char)} (new : key ∉ rest.keys)
    (spelled : SpellsEntries (rest.write others) texts) : ∀ text ∈ texts, text.1 ≠ key := by
  intro text member same
  have isKey : text.1 ∈ texts.map (·.1) := List.mem_map_of_mem member
  rw [spelled.keys] at isKey
  obtain ⟨entry, written, sameKey⟩ := List.mem_map.mp isKey
  exact new (same ▸ sameKey ▸ rest.keys_write others entry written)

/-! Reading back -/

section
variable {depth : Nat} {blanks : List Char} {rest : List Symbol}

theorem reads_textual {wording t a : String} {take : String → Except Cause String}
    (taken : take t = .ok a) (blank : Blank blanks) :
    Reads (textual wording take) depth (symbols (blanks ++ printString t) ++ rest) a rest := by
  rw [symbols_append, List.append_assoc]
  refine ((reads_token? blank (by rintro c ⟨⟩; rfl)).bind ((reads_step _).bind ?_)).settled
  refine (reads_string t).bind ?_
  rw [taken]
  exact reads_pure a

theorem isDigit_token {c : Char} (isDigit : c.isDigit = true) :
    Cursor.isBlank c = false ∧ c ≠ ',' ∧ c ≠ ']' ∧ c ≠ '\x7d' ∧ c ≠ 'n' := by
  refine ⟨?_, ?_, ?_, ?_, ?_⟩
  · by_contra blank
    simp only [Cursor.isBlank, Bool.not_eq_false, Bool.or_eq_true, beq_iff_eq] at blank
    rcases blank with ((rfl | rfl) | rfl) | rfl <;> cases isDigit
  all_goals rintro rfl; cases isDigit

theorem reads_numeric {wording : String} {n : Nat} {take : Number → Except Cause Nat}
    (taken : take (.natural n) = .ok n) (fits : n ≤ Text.maxWord64) (blank : Blank blanks)
    (ends : Delimited rest) :
    Reads (numeric wording take) depth (symbols (blanks ++ Nat.toDigits 10 n) ++ rest) n rest := by
  have digits : ∀ c ∈ Nat.toDigits 10 n, c.isDigit = true :=
    fun c => Nat.isDigit_of_mem_toDigits (by omega) (by omega)
  have read : Reads (number false) depth _ _ rest := reads_number fits ends
  cases written : Nat.toDigits 10 n with
  | nil => exact absurd written Nat.toDigits_ne_nil
  | cons c cs =>
    rw [written] at digits read
    have isDigit := digits c List.mem_cons_self
    have notBlank := (isDigit_token isDigit).1
    rw [symbols_append, List.append_assoc]
    refine ((reads_token? blank (by rintro d ⟨⟩; exact notBlank)).bind ?_).settled
    simp only [symbols_cons, List.cons_append, List.head?_cons] at read ⊢
    split
    · next minus => cases minus; cases isDigit
    · next same =>
      cases same
      rw [if_pos isDigit]
      refine read.bind ?_
      rw [taken]
      exact reads_pure n
    · next stray => cases stray
    · next ended => cases ended

theorem reads_boolean {b : Bool} {text : List Char} (spelled : Spells (.boolean b) text)
    (blank : Blank blanks) :
    Reads boolean depth (symbols (blanks ++ text) ++ rest) b rest := by
  rw [symbols_append, List.append_assoc]
  cases spelled with
  | yes =>
    refine (reads_token? blank (by rintro c ⟨⟩; rfl)).bind ((reads_step _).bind ?_)
    exact (reads_word ['r', 'u', 'e']).bind (reads_pure true)
  | no =>
    refine (reads_token? blank (by rintro c ⟨⟩; rfl)).bind ((reads_step _).bind ?_)
    exact (reads_word ['a', 'l', 's', 'e']).bind (reads_pure false)

end

/-- How a schema reads a text that stands for some data: whatever blanks are in front of it, and
whatever follows that can stand after a value. -/
structure Schema.ReadsBack (s : Schema) (depth : Nat) (d : s.Data) (text : List Char) : Prop where
  begins : Begins text
  /-- Only what may be null can be taken for it. -/
  notNull : s.absent? = none → text.head? ≠ some 'n'
  reads : ∀ blanks rest, Blank blanks → Delimited rest →
    Reads s.read depth (symbols (blanks ++ text) ++ rest) d rest

theorem Schema.ReadsBack.item {s : Schema} {depth : Nat} {d : s.Data} {text : List Char}
    (back : s.ReadsBack depth d text) : ReadsItem s.read depth d text :=
  ⟨back.begins, fun rest ends => back.reads [] rest blank_nil ends⟩

theorem toList_shown (n : Nat) : (Number.natural n).shown.toList = Nat.toDigits 10 n := by
  simp [Number.shown]

theorem Schema.readsBack_natural {greatest n : Nat} {range : String} {depth : Nat}
    (taken : naturalOf greatest range (.natural n) = .ok n) (fits : n ≤ Text.maxWord64) :
    (Schema.natural greatest range).ReadsBack depth n (Nat.toDigits 10 n) := by
  refine ⟨?_, ?_, fun blanks rest blank ends => reads_numeric taken fits blank ends⟩
  all_goals
    have digits : ∀ c ∈ Nat.toDigits 10 n, c.isDigit = true :=
      fun c => Nat.isDigit_of_mem_toDigits (by omega) (by omega)
    cases written : Nat.toDigits 10 n with
    | nil => exact absurd written Nat.toDigits_ne_nil
    | cons c cs => ?_
    rw [written] at digits
    have token := isDigit_token (digits c List.mem_cons_self)
  · exact ⟨c, rfl, token.1, token.2.1, token.2.2.1, token.2.2.2.1⟩
  · exact fun _ same => token.2.2.2.2 (Option.some.inj same)

theorem Schema.readsBack_nullable {s : Schema} {depth : Nat} {d : Option s.Data} {text : List Char}
    (plain : s.absent? = none) (spelled : Spells ((Schema.nullable s).write d) text)
    (back : ∀ a, d = some a → Spells (s.write a) text → s.ReadsBack depth a text) :
    (Schema.nullable s).ReadsBack depth d text := by
  cases d with
  | none =>
    replace spelled : Spells .null text := spelled
    cases spelled with
    | null =>
      refine ⟨⟨'n', rfl, rfl, by decide⟩, nofun, fun blanks rest blank ends => ?_⟩
      rw [symbols_append, List.append_assoc]
      refine (reads_token? blank (by rintro c ⟨⟩; rfl)).bind ((reads_step _).bind ?_)
      exact (reads_word ['u', 'l', 'l']).bind (reads_pure none)
  | some a =>
    obtain ⟨begins, notNull, reads⟩ := back a rfl spelled
    refine ⟨begins, nofun, fun blanks rest blank ends => ?_⟩
    rw [symbols_append, List.append_assoc]
    refine (reads_token? blank begins.atToken).bind ?_
    obtain ⟨c, head, _⟩ := begins
    -- The value does not begin as null does, so that the reader takes the other branch.
    have notN := notNull plain
    have read := reads [] rest blank_nil ends
    obtain ⟨cs, rfl⟩ := List.head?_eq_some_iff.mp head
    simp only [symbols_cons, List.cons_append, List.head?_cons, List.nil_append] at read notN ⊢
    split
    · next same => cases same; exact absurd rfl notN
    · exact read.bind (reads_pure _)

theorem Schema.readsBack_list {s : Schema} {depth : Nat} {values : List s.Data} {text : List Char}
    (deep : 0 < depth) (spelled : Spells ((Schema.list s).write values) text)
    (back : ∀ a ∈ values, ∀ item, Spells (s.write a) item → s.ReadsBack depth a item) :
    (Schema.list s).ReadsBack (depth + 1) values text := by
  replace spelled : Spells (.array (values.map s.write)) text := spelled
  cases spelled with
  | @array _ texts cs items row =>
    have each : List.Forall₂ (ReadsItem s.read depth) values texts := by
      -- The induction goes over the items alone, whatever stands between them.
      clear row
      induction values generalizing texts with
      | nil => cases items; exact .nil
      | cons a values ih =>
        obtain ⟨first, back⟩ := List.forall_mem_cons.mp back
        cases items with
        | cons spelled items => exact .cons (first _ spelled).item (ih back items)
    refine ⟨⟨'[', rfl, rfl, by decide⟩, fun _ => by simp, fun blanks rest blank ends => ?_⟩
    rw [symbols_append, List.append_assoc]
    refine (reads_token? blank (by rintro c ⟨⟩; rfl)).bind ?_
    simp only [symbols_cons, symbols_append, List.cons_append, List.head?_cons, List.append_assoc]
    exact reads_enclosed deep (reads_elements each row) reads_closeArray

theorem Schema.readsBack_record {wording : String} {fields : Fields} {depth : Nat}
    {d : fields.Data} {text : List Char} (deep : 0 < depth)
    (spelled : Spells ((Schema.record wording fields).write d) text)
    (back : ∀ texts, SpellsEntries (fields.write d) texts →
      Takes fields.readEntry depth texts fields.none (fields.found d)) :
    (Schema.record wording fields).ReadsBack (depth + 1) d text := by
  replace spelled : Spells (.object (fields.write d)) text := spelled
  cases spelled with
  | @object _ texts cs entries row =>
    refine ⟨⟨'\x7b', rfl, rfl, by decide⟩, fun _ => by simp, fun blanks rest blank ends => ?_⟩
    rw [symbols_append, List.append_assoc]
    refine (reads_token? blank (by rintro c ⟨⟩; rfl)).bind ?_
    simp only [symbols_cons, symbols_append, List.cons_append, List.head?_cons, List.append_assoc]
    refine reads_enclosed deep ((reads_entries (back texts entries) row).bind ?_) reads_closeObject
    rw [fields.finish_found d]
    exact reads_pure d

/-- The first field is read from the first entry, the others from the entries after it. -/
theorem Fields.takes_cons {key : String} {need : Need} {schema : Schema} {rest : Fields}
    {depth : Nat} {a : schema.Data} {others : rest.Data} {texts : List (String × List Char)}
    (new : key ∉ rest.keys)
    (spelled : SpellsEntries ((key, schema.write a) :: rest.write others) texts)
    (back : ∀ text, Spells (schema.write a) text → schema.ReadsBack depth a text)
    (later : ∀ texts, SpellsEntries (rest.write others) texts →
      Takes rest.readEntry depth texts rest.none (rest.found others)) :
    Takes (Fields.cons key need schema rest).readEntry depth texts
      (Option.none, rest.none) (some a, rest.found others) := by
  cases spelled with
  | @cons _ _ _ blanks gap text texts blank blankGap spelled spelledRest =>
    refine .cons (fun more ends => ?_)
      (Fields.takes_over (some a) (later texts spelledRest) (Fields.keys_ne new spelledRest))
    refine (?_ : Reads (if key = key then _ else _) depth _ _ _)
    rw [if_pos rfl]
    have value := (back text spelled).reads gap more blankGap ends
    have colon : Reads colon depth
        (symbols (blanks ++ [':']) ++ (symbols (gap ++ text) ++ more)) () _ := reads_colon blank
    simp only [symbols_append, symbols_cons, symbols_nil, List.append_assoc, List.cons_append,
      List.nil_append] at value colon ⊢
    exact colon.bind (value.bind (reads_pure _))

mutual

theorem Schema.reads_write : (s : Schema) → (d : s.Data) → s.Readable d →
    ∀ {depth : Nat} {text : List Char}, s.height < depth → Spells (s.write d) text →
      s.ReadsBack depth d text
  | .boolean, (b : Bool), _, depth, text, _, spelled => by
    refine ⟨?_, fun _ => ?_, fun blanks rest blank _ => reads_boolean spelled blank⟩
    all_goals replace spelled : Spells (.boolean b) text := spelled
    · cases spelled
      · exact ⟨'t', rfl, by decide⟩
      · exact ⟨'f', rfl, by decide⟩
    · cases spelled <;> simp
  | .text wording, (t : String), _, depth, text, _, spelled => by
    replace spelled : Spells (.text t) text := spelled
    cases spelled
    exact ⟨⟨'"', rfl, by decide⟩, fun _ => by simp [printString],
      fun blanks rest blank _ => reads_textual rfl blank⟩
  | .natural greatest range, (n : Nat), ⟨bound, fits⟩, depth, text, _, spelled => by
    replace spelled : Spells (.number (.natural n)) text := spelled
    cases spelled
    have taken : naturalOf greatest range (.natural n) = .ok n := if_pos bound
    rw [toList_shown]
    exact Schema.readsBack_natural taken (Nat.le_trans bound fits)
  | .nullable s, d, ⟨plain, readable⟩, depth, text, high, spelled =>
    Schema.readsBack_nullable plain spelled fun a same spelled =>
      s.reads_write a (readable a same) high spelled
  | .list s, values, readable, depth, text, high, spelled => by
    rw [Schema.height] at high
    obtain ⟨depth, rfl⟩ : ∃ less, depth = less + 1 := ⟨depth - 1, by omega⟩
    exact Schema.readsBack_list (by omega) spelled fun a member item spelled =>
      s.reads_write a (readable a member) (by omega) spelled
  | .name names, (name : String), member, depth, text, _, spelled => by
    replace spelled : Spells (.text name) text := spelled
    cases spelled
    have taken : nameOf names name = .ok name := if_pos (List.contains_iff_mem.mpr member)
    refine ⟨⟨'"', rfl, by decide⟩, fun _ => by simp [printString],
      fun blanks rest blank _ => ?_⟩
    rw [symbols_append, List.append_assoc]
    exact (reads_token? blank (by rintro c ⟨⟩; rfl)).bind (reads_textual taken blank_nil)
  | .record wording fields, d, ⟨distinct, readable⟩, depth, text, high, spelled => by
    rw [Schema.height] at high
    obtain ⟨depth, rfl⟩ : ∃ less, depth = less + 1 := ⟨depth - 1, by omega⟩
    exact Schema.readsBack_record (by omega) spelled fun texts spelled =>
      fields.takes_write d distinct readable (by omega) spelled

theorem Fields.takes_write : (fields : Fields) → (d : fields.Data) → fields.keys.Nodup →
    fields.Readable d → ∀ {depth : Nat} {texts : List (String × List Char)},
      fields.height < depth → SpellsEntries (fields.write d) texts →
      Takes fields.readEntry depth texts fields.none (fields.found d)
  | .nil, (), _, _, depth, texts, _, spelled => by
    cases spelled
    exact .nil _
  | .cons key .required schema rest, (a, others), distinct, ⟨first, readable⟩, depth, texts, high,
      spelled => by
    obtain ⟨high, highRest⟩ := Nat.max_lt.mp high
    obtain ⟨new, distinct⟩ := List.nodup_cons.mp distinct
    exact Fields.takes_cons new spelled
      (fun _ spelled => schema.reads_write a first high spelled)
      (fun _ spelled => rest.takes_write others distinct readable highRest spelled)
  | .cons key .optional schema rest, (.some a, others), distinct, ⟨first, readable⟩, depth, texts,
      high, spelled => by
    obtain ⟨high, highRest⟩ := Nat.max_lt.mp high
    obtain ⟨new, distinct⟩ := List.nodup_cons.mp distinct
    exact Fields.takes_cons new spelled
      (fun _ spelled => schema.reads_write a (first a rfl) high spelled)
      (fun _ spelled => rest.takes_write others distinct readable highRest spelled)
  | .cons key .optional schema rest, (.none, others), distinct, ⟨_, readable⟩, depth, texts,
      high, spelled => by
    -- A field without data has no entry.
    obtain ⟨_, highRest⟩ := Nat.max_lt.mp high
    obtain ⟨new, distinct⟩ := List.nodup_cons.mp distinct
    exact Fields.takes_over Option.none
      (rest.takes_write others distinct readable highRest spelled) (Fields.keys_ne new spelled)

end

theorem Schema.decode_of_spells {s : Schema} {d : s.Data} {text : List Char}
    (readable : s.Readable d) (high : s.height < 128) (spelled : Spells (s.write d) text) :
    s.decode (symbols text) = .ok d := by
  have read := (s.reads_write d readable high spelled).reads [] [] blank_nil nofun
  rw [List.nil_append, List.append_nil] at read
  exact read.whole

/-! What the printer writes -/

theorem further_printRow (item : List Char) (items : List (List Char)) :
    ∃ cs, printRow (item :: items) = item ++ cs ∧ Further items cs := by
  induction items generalizing item with
  | nil => exact ⟨[], (List.append_nil item).symm, .done blank_nil⟩
  | cons next items ih =>
    obtain ⟨cs, same, further⟩ := ih next
    refine ⟨[] ++ ',' :: ([] ++ (next ++ cs)), ?_, .more blank_nil blank_nil further⟩
    rw [List.nil_append, List.nil_append, ← same]
    rfl

theorem row_printRow (items : List (List Char)) : Row items (printRow items) := by
  cases items with
  | nil => exact .empty blank_nil
  | cons item items =>
    obtain ⟨cs, same, further⟩ := further_printRow item items
    rw [same]
    exact .items blank_nil further

theorem blank_lineBreak (indent : Nat) : Blank (lineBreak indent) := by
  intro c member
  rcases List.mem_cons.mp member with rfl | blank
  · rfl
  · rw [List.eq_of_mem_replicate blank]
    rfl

theorem further_printLines (indent : Nat) {blanks : List Char} (blank : Blank blanks)
    (item : List Char) (items : List (List Char)) :
    ∃ cs, printLines indent (item :: items) ++ blanks = lineBreak indent ++ (item ++ cs) ∧
      Further items cs := by
  induction items generalizing item with
  | nil => exact ⟨blanks, by rw [printLines, List.append_assoc], .done blank⟩
  | cons next items ih =>
    obtain ⟨cs, same, further⟩ := ih next
    refine ⟨[] ++ ',' :: (lineBreak indent ++ (next ++ cs)), ?_,
      .more blank_nil (blank_lineBreak indent) further⟩
    rw [← same]
    simp [printLines]

theorem row_printLines (indent : Nat) (items : List (List Char)) (some : items ≠ []) :
    Row items (printLines (indent + 1) items ++ lineBreak indent) := by
  obtain ⟨item, items, rfl⟩ := List.exists_cons_of_ne_nil some
  obtain ⟨cs, same, further⟩ := further_printLines (indent + 1) (blank_lineBreak indent) item items
  rw [same]
  exact .items (blank_lineBreak (indent + 1)) further

mutual

theorem Value.spells_print : (v : Value) → Spells v v.print
  | .null => .null
  | .boolean true => .yes
  | .boolean false => .no
  | .number n => .number n
  | .text s => .text s
  | .array items => .array (spells_printItems items) (row_printRow _)
  | .object entries => by
    obtain ⟨texts, spelled, same⟩ := spells_printEntries entries
    exact .object spelled (same ▸ row_printRow _)

theorem Value.spells_printItems : (items : List Value) → SpellsItems items (printItems items)
  | [] => .nil
  | v :: items => .cons v.spells_print (spells_printItems items)

theorem Value.spells_printEntries : (entries : List (String × Value)) →
    ∃ texts, SpellsEntries entries texts ∧ texts.map entryText = printEntries entries
  | [] => ⟨[], .nil, rfl⟩
  | (key, v) :: entries => by
    obtain ⟨texts, spelled, same⟩ := spells_printEntries entries
    refine ⟨_, .cons blank_nil blank_nil v.spells_print spelled, ?_⟩
    rw [List.map_cons, same]
    rfl

end

mutual

theorem Value.spells_pretty (indent : Nat) : (v : Value) → Spells v (v.pretty indent)
  | .null => .null
  | .boolean true => .yes
  | .boolean false => .no
  | .number n => .number n
  | .text s => .text s
  | .array [] => .array .nil (.empty blank_nil)
  | .array (v :: items) =>
    .array (spells_prettyItems (indent + 1) (v :: items))
      (row_printLines indent _ (List.cons_ne_nil _ _))
  | .object [] => .object .nil (.empty blank_nil)
  | .object ((key, v) :: entries) => by
    obtain ⟨texts, spelled, same⟩ := spells_prettyEntries (indent + 1) ((key, v) :: entries)
    have some : texts.map entryText ≠ [] := same ▸ List.cons_ne_nil _ _
    have spelled := Spells.object spelled (row_printLines indent _ some)
    rwa [same] at spelled

theorem Value.spells_prettyItems (indent : Nat) :
    (items : List Value) → SpellsItems items (prettyItems indent items)
  | [] => .nil
  | v :: items => .cons (v.spells_pretty indent) (spells_prettyItems indent items)

theorem Value.spells_prettyEntries (indent : Nat) : (entries : List (String × Value)) →
    ∃ texts, SpellsEntries entries texts ∧ texts.map entryText = prettyEntries indent entries
  | [] => ⟨[], .nil, rfl⟩
  | (key, v) :: entries => by
    obtain ⟨texts, spelled, same⟩ := spells_prettyEntries indent entries
    have gap : Blank [' '] := by simp [Blank, Cursor.isBlank]
    refine ⟨_, .cons blank_nil gap (v.spells_pretty indent) spelled, ?_⟩
    rw [List.map_cons, same]
    rfl

end

/-- What a schema writes on one line it reads back. -/
theorem Schema.decode_compact {s : Schema} {d : s.Data} (readable : s.Readable d)
    (high : s.height < 128) : s.decode (symbolsOfText (s.write d).compact) = .ok d := by
  rw [symbolsOfText, Value.compact, String.toList_ofList]
  exact Schema.decode_of_spells readable high (s.write d).spells_print

theorem Schema.decode_indented {s : Schema} {d : s.Data} (readable : s.Readable d)
    (high : s.height < 128) : s.decode (symbolsOfText (s.write d).indented) = .ok d := by
  rw [symbolsOfText, Value.indented, String.toList_ofList]
  exact Schema.decode_of_spells readable high ((s.write d).spells_pretty 0)

end CostWatch.Json

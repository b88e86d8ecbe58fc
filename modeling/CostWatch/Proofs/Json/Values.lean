import CostWatch.Proofs.Json.RoundTrip
import CostWatch.Proofs.Traversal

/-!
Values of no schema in particular: what stands for a value is read as that value, and a schema takes
what it has written from the value as well as from the text.
-/

set_option autoImplicit false

namespace CostWatch.Json

open Reader

/-! Values that can be read back -/

def Number.IsWord : Number → Prop
  | .natural n => n ≤ Text.maxWord64
  | .negative _ | .real _ => False

mutual

/-- There are at most `depth` arrays and objects around the parts of a value, and its numbers are
natural ones of 64 bits. -/
def Value.Fits : Nat → Value → Prop
  | _, .null | _, .boolean _ | _, .text _ => True
  | _, .number n => n.IsWord
  | 0, .array _ | 0, .object _ => False
  | depth + 1, .array items => Value.FitsItems depth items
  | depth + 1, .object entries => Value.FitsEntries depth entries

def Value.FitsItems (depth : Nat) : List Value → Prop
  | [] => True
  | v :: rest => v.Fits depth ∧ Value.FitsItems depth rest

def Value.FitsEntries (depth : Nat) : List (String × Value) → Prop
  | [] => True
  | (_, v) :: rest => v.Fits depth ∧ Value.FitsEntries depth rest

end

/-! Reading a value -/

section
variable {depth : Nat} {blanks text : List Char} {rest : List Symbol}

theorem reads_scalar_text (s : String) (blank : Blank blanks) :
    Reads scalar depth (symbols (blanks ++ printString s) ++ rest) (.text s) rest := by
  rw [symbols_append, List.append_assoc]
  exact (reads_token? blank (by rintro c ⟨⟩; rfl)).bind ((reads_step _).bind (reads_string s).map)

theorem reads_scalar_null (blank : Blank blanks) :
    Reads scalar depth (symbols (blanks ++ ['n', 'u', 'l', 'l']) ++ rest) .null rest := by
  rw [symbols_append, List.append_assoc]
  refine (reads_token? blank (by rintro c ⟨⟩; rfl)).bind ((reads_step _).bind ?_)
  exact (reads_word ['u', 'l', 'l']).bind (reads_pure _)

theorem reads_scalar_boolean {b : Bool} (spelled : Spells (.boolean b) text)
    (blank : Blank blanks) :
    Reads scalar depth (symbols (blanks ++ text) ++ rest) (.boolean b) rest := by
  rw [symbols_append, List.append_assoc]
  cases spelled with
  | yes =>
    refine (reads_token? blank (by rintro c ⟨⟩; rfl)).bind ((reads_step _).bind ?_)
    exact (reads_word ['r', 'u', 'e']).bind (reads_pure _)
  | no =>
    refine (reads_token? blank (by rintro c ⟨⟩; rfl)).bind ((reads_step _).bind ?_)
    exact (reads_word ['a', 'l', 's', 'e']).bind (reads_pure _)

theorem reads_scalar_natural {n : Nat} (fits : n ≤ Text.maxWord64) (blank : Blank blanks)
    (ends : Delimited rest) :
    Reads scalar depth (symbols (blanks ++ Nat.toDigits 10 n) ++ rest) (.number (.natural n))
      rest := by
  have digits : ∀ c ∈ Nat.toDigits 10 n, c.isDigit = true :=
    fun c => Nat.isDigit_of_mem_toDigits (by omega) (by omega)
  have read : Reads (number false) depth _ _ rest := reads_number fits ends
  cases written : Nat.toDigits 10 n with
  | nil => exact absurd written Nat.toDigits_ne_nil
  | cons c cs =>
    rw [written] at digits read
    have isDigit := digits c List.mem_cons_self
    have notBlank := (isDigit_token isDigit).1
    rw [symbols_append, List.append_assoc]
    refine (reads_token? blank (by rintro d ⟨⟩; exact notBlank)).bind ?_
    simp only [symbols_cons, List.cons_append, List.head?_cons] at read ⊢
    split
    case h_8 same =>
      cases same
      rw [if_pos isDigit]
      exact read.map
    -- All other scalars begin with a character that is no digit.
    all_goals
      next same =>
        cases same
        try cases isDigit

/-- An array or an object is told apart, and not read. -/
theorem reads_scalar_array (blank : Blank blanks) :
    Reads scalar depth (symbols (blanks ++ '[' :: text) ++ rest) .sequence
      (symbols ('[' :: text) ++ rest) := by
  rw [symbols_append, List.append_assoc]
  exact (reads_token? blank (by rintro c ⟨⟩; rfl)).bind (reads_pure _)

theorem reads_scalar_object (blank : Blank blanks) :
    Reads scalar depth (symbols (blanks ++ '\x7b' :: text) ++ rest) .map
      (symbols ('\x7b' :: text) ++ rest) := by
  rw [symbols_append, List.append_assoc]
  exact (reads_token? blank (by rintro c ⟨⟩; rfl)).bind (reads_pure _)

end

/-- How a text that stands for a value is read, with that many arrays and objects left to be
opened. -/
structure Value.ReadsBack (depth : Nat) (v : Value) (text : List Char) : Prop where
  begins : Begins text
  reads : ∀ blanks rest, Blank blanks → Delimited rest →
    Reads (valueAt depth) depth (symbols (blanks ++ text) ++ rest) v rest

theorem Value.ReadsBack.item {depth : Nat} {v : Value} {text : List Char}
    (back : v.ReadsBack depth text) : ReadsItem (valueAt depth) depth v text :=
  ⟨back.begins, fun rest ends => back.reads [] rest blank_nil ends⟩

def Value.readEntry (depth : Nat) (key : String) (done : List (String × Value)) :
    Reader (List (String × Value)) := do
  colon
  let v ← valueAt depth
  pure ((key, v) :: done)

theorem reads_afterKey {α σ : Type} {r : Reader α} {a : α} (next : α → σ) {depth : Nat}
    {blanks gap text : List Char} {rest : List Symbol} (blank : Blank blanks)
    (read : Reads r depth (symbols (gap ++ text) ++ rest) a rest) :
    Reads (colon >>= fun _ => r >>= fun a => pure (next a)) depth
      (symbols (blanks ++ ':' :: (gap ++ text)) ++ rest) (next a) rest := by
  have colon : Reads colon depth (symbols (blanks ++ [':']) ++ (symbols (gap ++ text) ++ rest)) ()
    _ := reads_colon blank
  simp only [symbols_append, symbols_cons, symbols_nil, List.append_assoc, List.cons_append,
    List.nil_append] at read colon ⊢
  exact colon.bind (read.bind (reads_pure _))

mutual

theorem Value.reads_spelled : (v : Value) → {depth : Nat} → {text : List Char} → v.Fits depth →
    Spells v text → v.ReadsBack (depth + 1) text
  | .null, depth, _, _, .null =>
    ⟨⟨'n', rfl, by decide⟩, fun _ _ blank _ => (reads_scalar_null blank).bind (reads_pure _)⟩
  | .boolean b, depth, _, _, spelled => by
    refine ⟨?_, fun _ _ blank _ => (reads_scalar_boolean spelled blank).bind (reads_pure _)⟩
    cases spelled
    · exact ⟨'t', rfl, by decide⟩
    · exact ⟨'f', rfl, by decide⟩
  | .text s, depth, _, _, .text _ =>
    ⟨⟨'"', rfl, by decide⟩, fun _ _ blank _ => (reads_scalar_text s blank).bind (reads_pure _)⟩
  | .number (.natural n), depth, _, fits, .number _ => by
    have fits : n ≤ Text.maxWord64 := fits
    rw [toList_shown]
    have back : (Schema.natural n "").ReadsBack depth n (Nat.toDigits 10 n) :=
      Schema.readsBack_natural (if_pos (Nat.le_refl n)) fits
    exact ⟨back.begins, fun _ _ blank ends =>
      (reads_scalar_natural fits blank ends).bind (reads_pure _)⟩
  | .array items, depth + 1, _, fits, .array spelled row => by
    have each := reads_spelledItems items fits spelled
    refine ⟨⟨'[', rfl, rfl, by decide⟩, fun blanks rest blank ends => ?_⟩
    refine (reads_scalar_array blank).bind ?_
    simp only [symbols_cons, symbols_append, List.cons_append, List.append_assoc]
    exact (reads_enclosed (Nat.succ_pos _) (reads_elements each row) reads_closeArray).map
  | .object entries, depth + 1, _, fits, .object spelled row => by
    have takes := takes_spelledEntries entries [] fits spelled
    refine ⟨⟨'\x7b', rfl, rfl, by decide⟩, fun blanks rest blank ends => ?_⟩
    refine (reads_scalar_object blank).bind ?_
    simp only [symbols_cons, symbols_append, List.cons_append, List.append_assoc]
    rw [List.append_nil] at takes
    have all : Reads ((fun done => Value.object done.reverse) <$>
        inObject (Reader.entries (readEntry (depth + 1)) [])) (depth + 2)
        (.char '\x7b' :: _) (Value.object entries.reverse.reverse) rest :=
      (reads_enclosed (Nat.succ_pos _) (reads_entries takes row) reads_closeObject).map
    rwa [List.reverse_reverse] at all

theorem Value.reads_spelledItems : (items : List Value) → {depth : Nat} →
    {texts : List (List Char)} → Value.FitsItems depth items → SpellsItems items texts →
      List.Forall₂ (ReadsItem (valueAt (depth + 1)) (depth + 1)) items texts
  | [], _, _, _, .nil => .nil
  | v :: items, _, _, ⟨fits, fitsRest⟩, .cons spelled rest =>
    .cons (v.reads_spelled fits spelled).item (reads_spelledItems items fitsRest rest)

theorem Value.takes_spelledEntries : (entries done : List (String × Value)) → {depth : Nat} →
    {texts : List (String × List Char)} → Value.FitsEntries depth entries →
      SpellsEntries entries texts →
      Takes (Value.readEntry (depth + 1)) (depth + 1) texts done (entries.reverse ++ done)
  | [], done, _, _, _, .nil => .nil done
  | (key, v) :: entries, done, _, _, ⟨fits, fitsRest⟩, .cons blank blankGap spelled rest => by
    refine .cons (fun more ends => reads_afterKey _ blank
      ((v.reads_spelled fits spelled).reads _ more blankGap ends)) ?_
    rw [List.reverse_cons, List.append_assoc]
    exact takes_spelledEntries entries _ fitsRest rest

end

/-- What stands for a value, it is read as, with blanks around it. -/
theorem reads_value {v : Value} {depth : Nat} {text : List Char} (fits : v.Fits depth)
    (spelled : Spells v text) {blanks : List Char} {rest : List Symbol} (blank : Blank blanks)
    (ends : Delimited rest) :
    Reads value (depth + 1) (symbols (blanks ++ text) ++ rest) v rest := by
  intro c before same
  obtain ⟨next, read, after⟩ := (v.reads_spelled fits spelled).reads blanks rest blank ends c before
    same
  exact ⟨next, by rw [value, same, read], after⟩

/-! Schemas and values -/

theorem Schema.write_ne_null {s : Schema} {a : s.Data} (plain : s.absent? = none)
    (readable : s.Readable a) : s.write a ≠ .null := by
  cases s with
  | nullable s => cases plain
  | any | either => exact readable.elim
  | _ => exact Value.noConfusion

theorem Schema.ofValue_nullable {s : Schema} {v : Value} (notNull : v ≠ .null) :
    (Schema.nullable s).ofValue v = (s.ofValue v).map (some · : s.Data → Option s.Data) := by
  cases v with
  | null => exact absurd rfl notNull
  | _ => rfl

theorem bind_eq_ok {ε α β : Type} {x : Except ε α} {f : α → Except ε β} {a : α} {b : β}
    (first : x = .ok a) (second : f a = .ok b) : (x >>= f) = .ok b := by
  rw [first]
  exact second

theorem Value.fitsItems_map {α : Type} {depth : Nat} {write : α → Value} {items : List α}
    (fits : ∀ a ∈ items, (write a).Fits depth) : Value.FitsItems depth (items.map write) := by
  induction items with
  | nil => trivial
  | cons a rest ih =>
    obtain ⟨first, fits⟩ := List.forall_mem_cons.mp fits
    exact ⟨first, ih fits⟩

/-- Entries for other fields pass over the first one. -/
theorem Fields.foldlM_over {key : String} {need : Need} {schema : Schema} {rest : Fields}
    {entries : List (String × Value)} {before after : rest.Partial} (found : Option schema.Data)
    (other : ∀ entry ∈ entries, entry.1 ≠ key)
    (put : entries.foldlM (fun found entry => rest.put entry.1 entry.2 found) before =
      .ok after) :
    entries.foldlM (fun found entry =>
      (Fields.cons key need schema rest).put entry.1 entry.2 found) (found, before) =
        .ok (found, after) := by
  induction entries generalizing before with
  | nil =>
    cases put
    rfl
  | cons entry entries ih =>
    obtain ⟨notKey, other⟩ := List.forall_mem_cons.mp other
    have passed : (Fields.cons key need schema rest).put entry.1 entry.2 (found, before) =
        (rest.put entry.1 entry.2 before).map (found, ·) := if_neg notKey
    rw [List.foldlM_cons] at put
    cases next : rest.put entry.1 entry.2 before with
    | error cause =>
      rw [next] at put
      cases put
    | ok between =>
      rw [next] at put passed
      exact bind_eq_ok passed (ih other put)

theorem Fields.foldlM_cons {key : String} {need : Need} {schema : Schema} {rest : Fields}
    {a : schema.Data} {others : rest.Data} (new : key ∉ rest.keys)
    (first : schema.ofValue (schema.write a) = .ok a)
    (later : (rest.write others).foldlM (fun found entry => rest.put entry.1 entry.2 found)
      rest.none = .ok (rest.found others)) :
    ((key, schema.write a) :: rest.write others).foldlM (fun found entry =>
      (Fields.cons key need schema rest).put entry.1 entry.2 found) (Option.none, rest.none) =
        .ok (some a, rest.found others) := by
  have other : ∀ entry ∈ rest.write others, entry.1 ≠ key := fun entry written same =>
    new (same ▸ rest.keys_write others entry written)
  have put : (Fields.cons key need schema rest).put key (schema.write a)
      (Option.none, rest.none) = (schema.ofValue (schema.write a)).map fun a =>
        (some a, rest.none) := if_pos rfl
  rw [first] at put
  exact bind_eq_ok put (Fields.foldlM_over (some a) other later)

mutual

theorem Schema.ofValue_write : (s : Schema) → (d : s.Data) → s.Readable d →
    s.ofValue (s.write d) = .ok d
  | .boolean, _, _ => rfl
  | .text _, _, _ => rfl
  | .natural _ _, _, ⟨bound, _⟩ => if_pos bound
  | .name _, _, member => if_pos (List.contains_iff_mem.mpr member)
  | .nullable _, .none, _ => rfl
  | .nullable s, .some a, ⟨plain, readable⟩ => by
    have readable := readable a rfl
    have written : (Schema.nullable s).ofValue (s.write a) = _ :=
      Schema.ofValue_nullable (Schema.write_ne_null plain readable)
    rw [s.ofValue_write a readable] at written
    exact written
  | .list s, values, readable => by
    have each : ∀ a, List.Mem a (values : List s.Data) → s.ofValue (s.write a) = .ok a :=
      fun a member => s.ofValue_write a (readable a member)
    exact mapM_map_eq_ok each
  | .record _ fields, d, ⟨distinct, readable⟩ => by
    change ((fields.write d).foldlM (fun found entry => fields.put entry.1 entry.2 found)
      fields.none >>= fields.finish) = .ok d
    rw [fields.foldlM_write d distinct readable]
    exact fields.finish_found d

theorem Fields.foldlM_write : (fields : Fields) → (d : fields.Data) → fields.keys.Nodup →
    fields.Readable d →
    (fields.write d).foldlM (fun found entry => fields.put entry.1 entry.2 found) fields.none =
      .ok (fields.found d)
  | .nil, (), _, _ => rfl
  | .cons key .required schema rest, (a, others), distinct, ⟨first, readable⟩ => by
    obtain ⟨new, distinct⟩ := List.nodup_cons.mp distinct
    exact Fields.foldlM_cons new (schema.ofValue_write a first)
      (rest.foldlM_write others distinct readable)
  | .cons key .optional schema rest, (.some a, others), distinct, ⟨first, readable⟩ => by
    obtain ⟨new, distinct⟩ := List.nodup_cons.mp distinct
    exact Fields.foldlM_cons new (schema.ofValue_write a (first a rfl))
      (rest.foldlM_write others distinct readable)
  | .cons key .optional schema rest, (.none, others), distinct, ⟨_, readable⟩ => by
    obtain ⟨new, distinct⟩ := List.nodup_cons.mp distinct
    exact Fields.foldlM_over Option.none
      (fun entry written same => new (same ▸ rest.keys_write others entry written))
      (rest.foldlM_write others distinct readable)

end

mutual

theorem Schema.fits_write : (s : Schema) → (d : s.Data) → s.Readable d → {depth : Nat} →
    s.height ≤ depth → (s.write d).Fits depth
  | .boolean, _, _, depth, _ => by cases depth <;> trivial
  | .text _, _, _, depth, _ => by cases depth <;> trivial
  | .natural _ _, _, ⟨bound, fits⟩, depth, _ => by
    cases depth <;> exact Nat.le_trans bound fits
  | .name _, _, _, depth, _ => by cases depth <;> trivial
  | .nullable _, .none, _, depth, _ => by cases depth <;> trivial
  | .nullable s, .some a, ⟨_, readable⟩, _, high => s.fits_write a (readable a rfl) high
  | .list s, values, readable, depth, high => by
    rw [Schema.height] at high
    obtain ⟨depth, rfl⟩ : ∃ less, depth = less + 1 := ⟨depth - 1, by omega⟩
    have each : ∀ a, List.Mem a (values : List s.Data) → (s.write a).Fits depth :=
      fun a member => s.fits_write a (readable a member) (by omega)
    exact Value.fitsItems_map each
  | .record _ fields, d, ⟨_, readable⟩, depth, high => by
    rw [Schema.height] at high
    obtain ⟨depth, rfl⟩ : ∃ less, depth = less + 1 := ⟨depth - 1, by omega⟩
    exact fields.fits_write d readable (by omega)

theorem Fields.fits_write : (fields : Fields) → (d : fields.Data) → fields.Readable d →
    {depth : Nat} → fields.height ≤ depth → Value.FitsEntries depth (fields.write d)
  | .nil, (), _, _, _ => trivial
  | .cons _ .required schema rest, (a, others), ⟨first, readable⟩, _, high =>
    ⟨schema.fits_write a first (Nat.max_le.mp high).1,
      rest.fits_write others readable (Nat.max_le.mp high).2⟩
  | .cons _ .optional schema rest, (.some a, others), ⟨first, readable⟩, _, high =>
    ⟨schema.fits_write a (first a rfl) (Nat.max_le.mp high).1,
      rest.fits_write others readable (Nat.max_le.mp high).2⟩
  | .cons _ .optional _ rest, (.none, others), ⟨_, readable⟩, _, high =>
    rest.fits_write others readable (Nat.max_le.mp high).2

end

/-! Printed texts have no line breaks -/

/-- There is no control character in a text, and so no end of a line. -/
def Visible (cs : List Char) : Prop :=
  ∀ c ∈ cs, 0x20 ≤ c.toNat

instance (cs : List Char) : Decidable (Visible cs) :=
  decidable_of_iff ((cs.all fun c => decide (0x20 ≤ c.toNat)) = true) (by simp [Visible])

theorem Visible.append {cs ds : List Char} (first : Visible cs) (second : Visible ds) :
    Visible (cs ++ ds) := by
  intro c member
  rcases List.mem_append.mp member with before | after
  · exact first c before
  · exact second c after

theorem Visible.cons {c : Char} {cs : List Char} (first : 0x20 ≤ c.toNat) (rest : Visible cs) :
    Visible (c :: cs) :=
  List.forall_mem_cons.mpr ⟨first, rest⟩

theorem visible_hexDigit : ∀ n < 16, 0x20 ≤ (hexDigit n).toNat := by decide

theorem visible_escapeChar (c : Char) : Visible (escapeChar c) := by
  unfold escapeChar
  split
  case h_8 =>
    split
    · next control =>
      have high := visible_hexDigit (c.toNat / 16) (by omega)
      have low := visible_hexDigit (c.toNat % 16) (by omega)
      simp [Visible, high, low]
    · next plain => simpa [Visible] using plain
  all_goals decide

theorem visible_printString (s : String) : Visible (printString s) := by
  refine (Visible.cons (by decide) ?_).append (by decide)
  intro c member
  obtain ⟨d, _, escaped⟩ := List.mem_flatMap.mp member
  exact visible_escapeChar d c escaped

theorem visible_printRow {items : List (List Char)} (visible : ∀ item ∈ items, Visible item) :
    Visible (printRow items) := by
  induction items with
  | nil => exact nofun
  | cons item rest ih =>
    obtain ⟨first, others⟩ := List.forall_mem_cons.mp visible
    cases rest with
    | nil => exact first
    | cons next rest => exact first.append (.cons (by decide) (ih others))

theorem visible_shown {n : Number} (word : n.IsWord) : Visible n.shown.toList := by
  cases n with
  | natural n =>
    rw [toList_shown]
    intro c member
    have isDigit := Nat.isDigit_of_mem_toDigits (by omega) (by omega) member
    simp only [Char.isDigit, Bool.and_eq_true, decide_eq_true_eq, ge_iff_le,
      UInt32.le_iff_toNat_le] at isDigit
    exact Nat.le_trans (by decide) isDigit.1
  | negative | real => exact word.elim

mutual

theorem Value.visible_print : (v : Value) → {depth : Nat} → v.Fits depth → Visible v.print
  | .null, _, _ => by decide
  | .boolean true, _, _ => by decide
  | .boolean false, _, _ => by decide
  | .text s, _, _ => visible_printString s
  | .number _, 0, word => visible_shown word
  | .number _, _ + 1, word => visible_shown word
  | .array items, _ + 1, fits =>
    (Visible.cons (by decide) (visible_printRow (visible_printItems items fits))).append (by decide)
  | .object entries, _ + 1, fits =>
    (Visible.cons (by decide) (visible_printRow (visible_printEntries entries fits))).append
      (by decide)

theorem Value.visible_printItems : (items : List Value) → {depth : Nat} →
    Value.FitsItems depth items → ∀ item ∈ printItems items, Visible item
  | [], _, _ => nofun
  | v :: rest, _, ⟨fits, fitsRest⟩ =>
    List.forall_mem_cons.mpr ⟨v.visible_print fits, visible_printItems rest fitsRest⟩

theorem Value.visible_printEntries : (entries : List (String × Value)) → {depth : Nat} →
    Value.FitsEntries depth entries → ∀ item ∈ printEntries entries, Visible item
  | [], _, _ => nofun
  | (key, v) :: rest, _, ⟨fits, fitsRest⟩ =>
    List.forall_mem_cons.mpr
      ⟨(visible_printString key).append (.cons (by decide) (v.visible_print fits)),
        visible_printEntries rest fitsRest⟩

end

end CostWatch.Json

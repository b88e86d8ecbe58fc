import CostWatch.Json.Tagged
import CostWatch.Proofs.Json.Values

/-!
Tagged unions are read back: an object whose first entry is the tag, and whose other entries are
what the fields of the variant have written.
-/

set_option autoImplicit false

namespace CostWatch.Json.Tagged

open Reader

variable {α : Type} {t : Tagged α} {depth : Nat}

theorem takes_fields {entries : List (String × Value)} {texts : List (String × List Char)}
    (other : ∀ entry ∈ entries, entry.1 ≠ t.tag) (fits : Value.FitsEntries depth entries)
    (spelled : SpellsEntries entries texts) (found : Option String)
    (done : List (String × Value)) :
    Takes t.readEntry (depth + 1) texts (found, done) (found, done ++ entries) := by
  induction entries generalizing texts done with
  | nil =>
    cases spelled
    rw [List.append_nil]
    exact .nil _
  | cons entry entries ih =>
    obtain ⟨notTag, others⟩ := List.forall_mem_cons.mp other
    cases spelled with
    | @cons key v _ blanks gap text _ blank blankGap spelled rest =>
      refine .cons (fun more ends => ?_) (List.append_cons done (key, v) entries ▸
        ih others fits.2 rest (done ++ [(key, v)]))
      rw [readEntry, if_neg notTag]
      exact reads_afterKey _ blank (reads_value fits.1 spelled blankGap ends)

theorem reads_parts {name : String} {entries : List (String × Value)} {text : List Char}
    {rest : List Symbol} (listed : name ∈ t.names) (other : ∀ entry ∈ entries, entry.1 ≠ t.tag)
    (fits : Value.FitsEntries depth entries)
    (spelled : Spells (.object ((t.tag, .text name) :: entries)) text) :
    Reads t.readParts (depth + 2) (symbols text ++ rest) (name, .object entries) rest := by
  cases spelled with
  | object spelled row =>
    cases spelled with
    | @cons _ _ _ blanks gap tagText _ blank blankGap spelledTag spelled =>
      cases spelledTag
      have tag (more : List Symbol) :
          Reads (t.readEntry t.tag (none, [])) (depth + 1)
            (symbols (blanks ++ ':' :: (gap ++ printString name)) ++ more) (some name, []) more := by
        rw [readEntry, if_pos rfl]
        exact reads_afterKey _ blank
          (reads_textual (if_pos (List.contains_iff_mem.mpr listed)) blankGap)
      have takes := Takes.cons (fun more _ => tag more)
        (takes_fields other fits spelled (some name) [])
      simp only [symbols_cons, symbols_append, symbols_nil, List.cons_append, List.append_assoc,
        List.nil_append]
      refine (reads_token? blank_nil (by rintro c ⟨⟩; rfl)).bind ?_
      exact reads_enclosed (Nat.succ_pos _)
        ((reads_entries takes row).bind (reads_pure (name, Value.object entries))) reads_closeObject

/-- A union that can be read back: an object tells its tag from all fields of all variants. -/
structure Sound (t : Tagged α) : Prop where
  distinct : ∀ variant ∈ t.variants, variant.fields.keys.Nodup
  tag : ∀ variant ∈ t.variants, t.tag ∉ variant.fields.keys
  height : ∀ variant ∈ t.variants, variant.fields.height < 127

/-- What a union writes for a value of its type: the name of a variant, and the entries of its
fields. -/
inductive Writes (t : Tagged α) (a : α) (name : String) (entries : List (String × Value)) :
    Prop where
  | of {variant : Variant α} : t.variants.find? (·.name == name) = some variant →
      (d : variant.fields.Data) → variant.fields.Readable d → entries = variant.fields.write d →
      variant.make d = a → Writes t a name entries

namespace Sound

variable {a : α} {name : String} {entries : List (String × Value)}

theorem fits (sound : t.Sound) (writes : t.Writes a name entries) :
    Value.FitsEntries 126 entries := by
  obtain ⟨found, d, readable, rfl, -⟩ := writes
  exact Fields.fits_write _ d readable
    (Nat.le_of_lt_succ (sound.height _ (List.mem_of_find?_eq_some found)))

theorem decode_object (sound : t.Sound) (writes : t.Writes a name entries) :
    t.decode (symbolsOfText (Value.object ((t.tag, .text name) :: entries)).compact) = .ok a := by
  have fits := sound.fits writes
  obtain @⟨variant, found, d, readable, rfl, rfl⟩ := writes
  have member := List.mem_of_find?_eq_some found
  have named : variant.name = name := by simpa using List.find?_some found
  have listed : name ∈ t.names := named ▸ List.mem_map_of_mem member
  have other : ∀ entry ∈ variant.fields.write d, entry.1 ≠ t.tag := fun entry written same =>
    sound.tag variant member (same ▸ variant.fields.keys_write d entry written)
  have content : t.content name (.object (variant.fields.write d)) = .ok (variant.make d) := by
    have back := (Schema.record variant.wording variant.fields).ofValue_write d
      ⟨sound.distinct variant member, readable⟩
    rw [content, found]
    exact congrArg (Except.map variant.make) back
  have parts : Reads t.readParts 128 (_ ++ []) _ [] :=
    reads_parts listed other fits (Value.spells_print _)
  rw [List.append_nil] at parts
  rw [symbolsOfText, Value.compact, String.toList_ofList]
  refine Reads.whole (parts.bind ?_)
  dsimp only
  rw [content]
  exact reads_pure _

end Sound

end CostWatch.Json.Tagged

import CostWatch.Json.Schema
import CostWatch.Proofs.Json.Reads

/-!
What readers refuse. An array is refused as soon as one of its elements is, wherever that stands and
whatever comes after it.
-/

set_option autoImplicit false

namespace CostWatch.Json

namespace Reader

variable {α β : Type} {depth : Nat} {text more rest : List Symbol}

def Refuses (r : Reader α) (depth : Nat) (text : List Symbol) : Prop :=
  ∀ c : Cursor, c.rest = text → c.depth = depth → ∃ fault, r c = .error fault

theorem refuses_failHere (cause : Cause) : Refuses (failHere cause : Reader α) depth text :=
  fun _ _ _ => ⟨_, rfl⟩

theorem Refuses.bind {r : Reader α} (first : Refuses r depth text) (f : α → Reader β) :
    Refuses (r >>= f) depth text := by
  intro c before same
  obtain ⟨fault, failed⟩ := first c before same
  exact ⟨fault, bind_error failed f⟩

theorem Reads.bind_refuses {r : Reader α} {f : α → Reader β} {a : α}
    (first : Reads r depth text a more) (second : Refuses (f a) depth more) :
    Refuses (r >>= f) depth text := by
  intro c before same
  obtain ⟨next, read, between, same⟩ := first c before same
  obtain ⟨fault, failed⟩ := second next between same
  exact ⟨fault, (bind_ok read f).trans failed⟩

theorem refuses_enclosed {inside : Reader α} (leave : Closing) (close : Reader Unit)
    (opening : Symbol) (inner : Refuses inside depth text) :
    Refuses (enclosed leave close inside) (depth + 1) (opening :: text) := by
  intro c before same
  rw [enclosed]
  split
  · exact ⟨_, rfl⟩
  · obtain ⟨fault, failed⟩ := inner { c.advance with depth := c.depth - 1 }
      (by rw [Cursor.rest_advance, before, List.tail_cons]) (by rw [same]; rfl)
    exact ⟨_, by rw [failed]⟩

/-- The text of an element on which its reader fails, whatever follows it. -/
def RefusesItem (element : Reader α) (depth : Nat) (item : List Char) : Prop :=
  Begins item ∧ ∀ rest, Delimited rest → Refuses element depth (symbols item ++ rest)

section
variable {element : Reader α} {values : List α} {before after : List (List Char)}
  {bad cs : List Char}

theorem refuses_elementsFrom (each : List.Forall₂ (ReadsItem element depth) values before)
    (refuses : RefusesItem element depth bad) (further : Further (before ++ bad :: after) cs)
    (steps : Nat) :
    Refuses (elementsFrom element false steps) depth (symbols cs ++ .char ']' :: rest) := by
  obtain ⟨badBegins, failed⟩ := refuses
  induction each generalizing cs steps with
  | nil =>
    cases further with
    | more blank blankBetween further =>
      -- Running out of steps is a failure as well.
      cases steps with
      | zero => exact refuses_failHere _
      | succ steps =>
        refine (reads_nextElement_further blank blankBetween badBegins).bind_refuses ?_
        exact (failed _ (further.delimited (.inl rfl))).bind _
  | cons reads each ih =>
    cases further with
    | more blank blankBetween further =>
      obtain ⟨begins, read⟩ := reads
      cases steps with
      | zero => exact refuses_failHere _
      | succ steps =>
        refine (reads_nextElement_further blank blankBetween begins).bind_refuses ?_
        refine (read _ (further.delimited (.inl rfl))).bind_refuses ?_
        exact (ih further steps).bind _

theorem refuses_elements (each : List.Forall₂ (ReadsItem element depth) values before)
    (refuses : RefusesItem element depth bad) (row : Row (before ++ bad :: after) cs) :
    Refuses (elements element) depth (symbols cs ++ .char ']' :: rest) := by
  intro c isText same
  obtain ⟨steps, isSucc⟩ : ∃ more, c.steps = more + 1 := ⟨c.left, rfl⟩
  rw [elements, isSucc]
  refine (?_ : Refuses (elementsFrom element true (steps + 1)) depth _) c isText same
  cases each with
  | nil =>
    obtain ⟨begins, failed⟩ := refuses
    cases row with
    | items blank further =>
      refine (reads_nextElement_first blank begins).bind_refuses ?_
      exact (failed _ (further.delimited (.inl rfl))).bind _
  | cons reads each =>
    obtain ⟨begins, read⟩ := reads
    cases row with
    | items blank further =>
      refine (reads_nextElement_first blank begins).bind_refuses ?_
      refine (read _ (further.delimited (.inl rfl))).bind_refuses ?_
      exact (refuses_elementsFrom each refuses further steps).bind _

end

theorem Refuses.whole {r : Reader α} (refused : Refuses r maxDepth text) :
    ∃ fault, Reader.whole r text = .error fault := by
  obtain ⟨fault, failed⟩ := refused (Cursor.start text) rfl rfl
  refine ⟨fault, ?_⟩
  unfold Reader.whole
  dsimp only
  rw [bind_error failed]
  rfl

end Reader

open Reader

/-- A list is not decoded if one of its elements is refused. -/
theorem Schema.decode_list_of_refused {s : Schema} {values : List s.Data}
    {before after : List (List Char)} {bad cs blanks : List Char}
    (each : List.Forall₂ (ReadsItem s.read 127) values before)
    (refuses : RefusesItem s.read 127 bad) (row : Row (before ++ bad :: after) cs)
    (blank : Blank blanks) (rest : List Symbol) :
    ∃ fault, (Schema.list s).decode
      (symbols blanks ++ .char '[' :: (symbols cs ++ .char ']' :: rest)) = .error fault := by
  have failed : Refuses (Schema.list s).read 128
      (symbols blanks ++ .char '[' :: (symbols cs ++ .char ']' :: rest)) := by
    refine (reads_token? blank (by rintro c ⟨⟩; rfl)).bind_refuses ?_
    exact refuses_enclosed _ _ _ (refuses_elements each refuses row)
  exact failed.whole

theorem Schema.refusesItem_record {fields : Fields} {depth : Nat}
    {texts : List (String × List Char)} {cs : List Char} {found : fields.Partial} {cause : Cause}
    (wording : String) (takes : Takes fields.readEntry depth texts fields.none found)
    (missing : fields.finish found = .error cause) (row : Row (texts.map entryText) cs) :
    RefusesItem (Schema.record wording fields).read (depth + 1) ('\x7b' :: (cs ++ ['\x7d'])) := by
  refine ⟨⟨'\x7b', rfl, by decide⟩, fun rest _ => ?_⟩
  simp only [symbols_cons, symbols_append, symbols_nil, List.cons_append, List.append_assoc,
    List.nil_append]
  refine (reads_token? blank_nil (by rintro c ⟨⟩; rfl)).bind_refuses ?_
  refine refuses_enclosed _ _ _ ((reads_entries takes row).bind_refuses ?_)
  rw [missing]
  exact fun _ _ _ => ⟨_, rfl⟩

end CostWatch.Json

import CostWatch.Json.Schema

/-!
Tagged unions: objects in which one entry, the tag, names a variant, and the other entries are the
fields of that variant. An array is accepted too, with the name as its first element.

The tag is judged where it stands in the text; the fields are judged once the whole object has been
read, so that their faults have no position.
-/

set_option autoImplicit false

namespace CostWatch.Json

structure Variant (α : Type) where
  name : String
  /-- What an array of its fields is expected to be. -/
  wording : String
  fields : Fields
  make : fields.Data → α

structure Tagged (α : Type) where
  tag : String
  /-- What the value is expected to be. -/
  wording : String
  variants : List (Variant α)

namespace Tagged

variable {α : Type}

def names (t : Tagged α) : List String :=
  t.variants.map (·.name)

def content (t : Tagged α) (name : String) (v : Value) : Except Cause α :=
  match t.variants.find? (·.name == name) with
  | some variant =>
    ((Schema.record variant.wording variant.fields).ofValue v).map variant.make
  | none => .error (.unknownVariant name t.names)

def tagOf (t : Tagged α) : Value → Except Cause String
  | .text s => nameOf t.names s
  | v => .error (.invalidType v.found "variant identifier")

def putEntry (t : Tagged α) (key : String) (v : Value)
    (state : Option String × List (String × Value)) :
    Except Cause (Option String × List (String × Value)) :=
  if key = t.tag then
    match state.1 with
    | some _ => .error (.duplicateField t.tag)
    | none => (t.tagOf v).map fun name => (some name, state.2)
  else .ok (state.1, state.2 ++ [(key, v)])

def ofValue (t : Tagged α) : Value → Except Cause α
  | .array [] => .error (.missingField t.tag)
  | .array (first :: rest) => do
    let name ← t.tagOf first
    t.content name (.array rest)
  | .object entries => do
    let (name, fields) ← entries.foldlM (fun state e => t.putEntry e.1 e.2 state) (none, [])
    match name with
    | some name => t.content name (.object fields)
    | none => .error (.missingField t.tag)
  | v => .error (.invalidType v.found t.wording)

open Reader in
def readTag (t : Tagged α) : Reader String :=
  textual "variant identifier" (nameOf t.names)

open Reader in
def readEntry (t : Tagged α) (key : String) (state : Option String × List (String × Value)) :
    Reader (Option String × List (String × Value)) :=
  if key = t.tag then
    match state.1 with
    | some _ => failOpen (.duplicateField t.tag)
    | none => do
      colon
      let name ← t.readTag
      pure (some name, state.2)
  else do
    colon
    let v ← value
    pure (state.1, state.2 ++ [(key, v)])

open Reader in
/-- Reads the name of the variant and, still unjudged, its fields. -/
def readParts (t : Tagged α) : Reader (String × Value) := do
  match ← token? with
  | some (.char '[') =>
    inArray do
      if ← nextElement true then
        let name ← t.readTag
        let rest ← fun c => elementsFrom value false c.steps c
        pure (name, .array rest)
      else failOpen (.missingField t.tag)
  | some (.char '\x7b') =>
    inObject do
      let (name, fields) ← entries t.readEntry (none, [])
      match name with
      | some name => pure (name, .object fields)
      | none => failOpen (.missingField t.tag)
  | _ => refuse t.wording

open Reader in
def read (t : Tagged α) : Reader α := do
  let (name, fields) ← t.readParts
  ofExcept (t.content name fields)

def decode (t : Tagged α) (symbols : List Symbol) : Except Fault α :=
  Reader.whole t.read symbols

end Tagged

end CostWatch.Json

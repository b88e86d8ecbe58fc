import CostWatch.Json.Reader

/-!
Schemas of JSON values.

A schema determines a type of data, a writer of that data as a JSON value, and two readers of it:
one that reads the text as it goes, so that the first fault of the text wins, and one that takes a
value already read. Objects that a schema describes may also be given as arrays of their fields in
order; entries that it does not name are passed over.
-/

set_option autoImplicit false

namespace CostWatch.Json

inductive Need where
  | required
  /-- The field may be left out, and is not written when it has no data. -/
  | optional
  deriving DecidableEq

mutual

inductive Schema where
  | boolean
  /-- A text; the wording says what is expected. -/
  | text (wording : String)
  /-- A natural number up to a bound, with the name of that range. -/
  | natural (greatest : Nat) (range : String)
  /-- An integer of 64 bits. -/
  | integer
  /-- Any value. -/
  | any
  /-- A value or null. -/
  | nullable (s : Schema)
  | list (s : Schema)
  /-- One of the given names. -/
  | name (names : List String)
  /-- A value of the first form that fits. -/
  | either (type : String) (first second : Schema)
  /-- An object with fields; the wording says what is expected. -/
  | record (wording : String) (fields : Fields)

inductive Fields where
  | nil
  | cons (key : String) (need : Need) (schema : Schema) (rest : Fields)

end

mutual

def Schema.Data : Schema → Type
  | .boolean => Bool
  | .text _ => String
  | .natural _ _ => Nat
  | .integer => Int
  | .any => Value
  | .nullable s => Option s.Data
  | .list s => List s.Data
  | .name _ => String
  | .either _ first second => first.Data ⊕ second.Data
  | .record _ fields => fields.Data

def Fields.Data : Fields → Type
  | .nil => Unit
  | .cons _ .required schema rest => schema.Data × rest.Data
  | .cons _ .optional schema rest => Option schema.Data × rest.Data

end

def Fields.Partial : Fields → Type
  | .nil => Unit
  | .cons _ _ schema rest => Option schema.Data × rest.Partial

def Fields.none : (fields : Fields) → fields.Partial
  | .nil => ()
  | .cons _ _ _ rest => (Option.none, rest.none)

def Fields.count : Fields → Nat
  | .nil => 0
  | .cons _ _ _ rest => rest.count + 1

/-- What a schema accepts in place of a field that is not there. -/
def Schema.absent? : (s : Schema) → Option s.Data
  | .nullable _ => some Option.none
  | _ => Option.none

def Fields.finish : (fields : Fields) → fields.Partial → Except Cause fields.Data
  | .nil, _ => .ok ()
  | .cons key .required schema rest, (found, others) =>
    match found with
    | some a => (rest.finish others).map (a, ·)
    | Option.none =>
      match schema.absent? with
      | some a => (rest.finish others).map (a, ·)
      | Option.none => .error (.missingField key)
  | .cons _ .optional _ rest, (found, others) => (rest.finish others).map (found, ·)

/-! Writing -/

mutual

def Schema.write : (s : Schema) → s.Data → Value
  | .boolean, (b : Bool) => .boolean b
  | .text _, (t : String) => .text t
  | .natural _ _, (n : Nat) => .nat n
  | .integer, (i : Int) => .number (.ofInt i)
  | .any, (v : Value) => v
  | .nullable s, d =>
    match (d : Option s.Data) with
    | some a => s.write a
    | Option.none => .null
  | .list s, d => .array ((d : List s.Data).map s.write)
  | .name _, (t : String) => .text t
  | .either _ first second, d =>
    match (d : first.Data ⊕ second.Data) with
    | .inl a => first.write a
    | .inr b => second.write b
  | .record _ fields, d => .object (fields.write d)

def Fields.write : (fields : Fields) → fields.Data → List (String × Value)
  | .nil, _ => []
  | .cons key .required schema rest, (a, others) => (key, schema.write a) :: rest.write others
  | .cons key .optional schema rest, (found, others) =>
    match (found : Option schema.Data) with
    | some a => (key, schema.write a) :: rest.write others
    | Option.none => rest.write others

end

/-! Reading a value -/

/-- What an array may hold at most, once `count` of its elements have been used. -/
def sequenceWording (count : Nat) : String :=
  if count = 1 then "1 element in sequence" else s!"{count} elements in sequence"

def recordWording (wording : String) (count : Nat) : String :=
  if count = 1 then wording ++ " with 1 element" else wording ++ s!" with {count} elements"

def naturalOf (greatest : Nat) (range : String) (n : Number) : Except Cause Nat :=
  match n with
  | .natural k => if k ≤ greatest then .ok k else .error (.invalidValue (.number n) range)
  | .negative _ => .error (.invalidValue (.number n) range)
  | .real _ => .error (.invalidType (.number n) range)

def integerOf (n : Number) : Except Cause Int :=
  match n with
  | .natural k => if k < Nat.pow 2 63 then .ok k else .error (.invalidValue (.number n) "i64")
  | .negative k => .ok (-k)
  | .real _ => .error (.invalidType (.number n) "i64")

def nameOf (names : List String) (name : String) : Except Cause String :=
  if names.contains name then .ok name else .error (.unknownVariant name names)

def emptyContent : Value → Except Cause Unit
  | .null => .ok ()
  | .object [] => .ok ()
  | v => .error (.invalidType v.found "unit")

mutual

def Schema.ofValue : (s : Schema) → Value → Except Cause s.Data
  | .boolean, .boolean b => .ok b
  | .boolean, v => .error (.invalidType v.found "a boolean")
  | .text _, .text t => .ok t
  | .text wording, v => .error (.invalidType v.found wording)
  | .natural greatest range, .number n => naturalOf greatest range n
  | .natural _ range, v => .error (.invalidType v.found range)
  | .integer, .number n => integerOf n
  | .integer, v => .error (.invalidType v.found "i64")
  | .any, v => .ok v
  | .nullable _, .null => .ok Option.none
  | .nullable s, v => (s.ofValue v).map (some · : s.Data → Option s.Data)
  | .list s, .array items => items.mapM s.ofValue
  | .list _, v => .error (.invalidType v.found "a sequence")
  | .name names, .text t => nameOf names t
  | .name names, .object entries =>
    match entries with
    | [(key, content)] => do
      let found ← nameOf names key
      emptyContent content
      .ok found
    | _ => .error (.invalidValue .map "map with a single key")
  | .name _, v => .error (.invalidType v.found "string or map")
  | .either type first second, v =>
    match first.ofValue v with
    | .ok a => .ok (.inl a : first.Data ⊕ second.Data)
    | .error _ =>
      match second.ofValue v with
      | .ok b => .ok (.inr b : first.Data ⊕ second.Data)
      | .error _ => .error (.noAlternative type)
  | .record wording fields, .array items => fields.ofItems wording fields.count 0 items.length items
  | .record _ fields, .object entries => do
    let found ← entries.foldlM (fun found entry => fields.put entry.1 entry.2 found) fields.none
    fields.finish found
  | .record wording _, v => .error (.invalidType v.found wording)

/-- Takes up an entry; one with an unknown key changes nothing. -/
def Fields.put : (fields : Fields) → String → Value → fields.Partial → Except Cause fields.Partial
  | .nil, _, _, found => .ok found
  | .cons key _ schema rest, k, v, (found, others) =>
    if k = key then
      match found with
      | some _ => .error (.duplicateField key)
      | Option.none => (schema.ofValue v).map fun a => (some a, others)
    else (rest.put k v others).map (found, ·)

/-- Reads fields from the elements of an array, `used` of them having been used before. -/
def Fields.ofItems (wording : String) (count used total : Nat) :
    (fields : Fields) → List Value → Except Cause fields.Data
  | .nil, [] => .ok ()
  | .nil, _ :: _ => .error (.invalidLength total (sequenceWording used))
  | .cons _ .required schema rest, v :: items => do
    let a ← schema.ofValue v
    let others ← rest.ofItems wording count (used + 1) total items
    .ok (a, others)
  | .cons _ .required _ _, [] => .error (.invalidLength used (recordWording wording count))
  | .cons _ .optional schema rest, v :: items => do
    let a ← schema.ofValue v
    let others ← rest.ofItems wording count (used + 1) total items
    .ok (some a, others)
  | .cons _ .optional _ rest, [] =>
    (rest.ofItems wording count (used + 1) total []).map (Option.none, ·)

end

/-! Reading a text -/

namespace Reader

def ofExcept {α : Type} : Except Cause α → Reader α
  | .ok a => pure a
  | .error cause => failOpen cause

def numeric {α : Type} (wording : String) (take : Number → Except Cause α) : Reader α :=
  settled do
    match ← token? with
    | some (.char '-') =>
      step
      ofExcept (take (← number true))
    | some (.char c) =>
      if c.isDigit then ofExcept (take (← number false)) else refuse wording
    | some (.stray _) => refuse wording
    | none => failAhead .endInValue

def textual {α : Type} (wording : String) (take : String → Except Cause α) : Reader α :=
  settled do
    match ← token? with
    | some (.char '"') =>
      step
      ofExcept (take (← string))
    | some _ => refuse wording
    | none => failAhead .endInValue

def boolean : Reader Bool := do
  match ← token? with
  | some (.char 't') =>
    step
    word ['r', 'u', 'e']
    pure true
  | some (.char 'f') =>
    step
    word ['a', 'l', 's', 'e']
    pure false
  | some _ => refuse "a boolean"
  | none => failAhead .endInValue

def nothing : Reader Unit := do
  match ← token? with
  | some (.char 'n') =>
    step
    word ['u', 'l', 'l']
  | some _ => refuse "unit"
  | none => failAhead .endInValue

def namedKey (names : List String) : Reader String := fun c =>
  let inside : Reader String := do
    let name ← textual "variant identifier" (nameOf names)
    colon
    nothing
    pure name
  if c.depth ≤ 1 then .error (.placed .tooDeep c.ahead)
  else
    match inside ({ c.advance with depth := c.depth - 1 }) with
    | .error fault => .error fault
    | .ok (name, after) =>
      let close := ({ after with depth := c.depth } : Cursor).dropBlanks
      match close.rest with
      | .char '\x7d' :: _ => .ok (name, close.advance)
      | [] => .error (.placed .endInObject close.position)
      | _ => .error (.placed .expectedValue close.position)

/-- Reads one of the given names, alone or as the only key of an object without content. -/
def named (names : List String) : Reader String := do
  match ← token? with
  | some (.char '\x7b') => namedKey names
  | some (.char '"') => textual "variant identifier" (nameOf names)
  | some _ => failAhead .expectedValue
  | none => failAhead .endInValue

end Reader

open Reader in
mutual

def Schema.read : (s : Schema) → Reader s.Data
  | .boolean => boolean
  | .text wording => textual wording .ok
  | .natural greatest range => numeric range (naturalOf greatest range)
  | .integer => numeric "i64" integerOf
  | .any => value
  | .nullable s => do
    match ← token? with
    | some (.char 'n') =>
      step
      word ['u', 'l', 'l']
      pure (Option.none : Option s.Data)
    | _ =>
      let a ← s.read
      pure (some a : Option s.Data)
  | .list s => do
    match ← token? with
    | some (.char '[') => inArray (elements s.read)
    | some _ => refuse "a sequence"
    | none => failAhead .endInValue
  | .name names => named names
  | .either type first second => do
    let v ← value
    ofExcept ((Schema.either type first second).ofValue v)
  | .record wording fields => do
    match ← token? with
    | some (.char '[') => inArray (fields.readItems wording fields.count 0 true)
    | some (.char '\x7b') =>
      inObject do
        let found ← entries fields.readEntry fields.none
        ofExcept (fields.finish found)
    | some _ => refuse wording
    | none => failAhead .endInValue

def Fields.readEntry : (fields : Fields) → String → fields.Partial → Reader fields.Partial
  | .nil, _, found => do
    colon
    skipValue
    pure found
  | .cons key _ schema rest, k, (found, others) =>
    if k = key then
      match found with
      | some _ => failOpen (.duplicateField key)
      | Option.none => do
        colon
        let a ← schema.read
        pure (some a, others)
    else do
      let others ← rest.readEntry k others
      pure (found, others)

def Fields.readItems (wording : String) (count used : Nat) (first : Bool) :
    (fields : Fields) → Reader fields.Data
  | .nil => pure ()
  | .cons _ .required schema rest => do
    if ← nextElement first then
      let a ← schema.read
      let others ← rest.readItems wording count (used + 1) false
      pure (a, others)
    else failOpen (.invalidLength used (recordWording wording count))
  | .cons _ .optional schema rest => do
    if ← nextElement first then
      let a ← schema.read
      let others ← rest.readItems wording count (used + 1) false
      pure (some a, others)
    else
      let others ← rest.readItems wording count (used + 1) first
      pure (Option.none, others)

end

def Schema.decode (s : Schema) (symbols : List Symbol) : Except Fault s.Data :=
  Reader.whole s.read symbols

end CostWatch.Json

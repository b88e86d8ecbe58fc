import CostWatch.Json.Fault
import CostWatch.Json.Real

/-!
Readers of JSON tokens.

A reader takes the state before a token and answers what it read with the state after it, or a
fault. Faults of the syntax are placed where they are met; faults of a value stay open until the
token, array or object that they concern has been left.
-/

set_option autoImplicit false

namespace CostWatch.Json

def Reader (α : Type) : Type :=
  Cursor → Except Fault (α × Cursor)

namespace Reader

variable {α β σ : Type}

instance : Monad Reader where
  pure a := fun c => .ok (a, c)
  bind r f := fun c =>
    match r c with
    | .ok (a, next) => f a next
    | .error fault => .error fault

theorem bind_ok {r : Reader α} {c next : Cursor} {a : α} (read : r c = .ok (a, next))
    (f : α → Reader β) : (r >>= f) c = f a next := by
  change (match r c with | .ok (a, next) => f a next | .error fault => .error fault) = _
  rw [read]

theorem bind_error {r : Reader α} {c : Cursor} {fault : Fault} (failed : r c = .error fault)
    (f : α → Reader β) : (r >>= f) c = .error fault := by
  change (match r c with | .ok (a, next) => f a next | .error fault => .error fault) = _
  rw [failed]

def failHere (cause : Cause) : Reader α :=
  fun c => .error (.placed cause c.position)

def failAhead (cause : Cause) : Reader α :=
  fun c => .error (.placed cause c.ahead)

def failOpen (cause : Cause) : Reader α :=
  fun c => .error (.open cause c)

def settled (r : Reader α) : Reader α :=
  fun c => (r c).mapError Fault.settle

def step : Reader Unit :=
  fun c => .ok ((), c.advance)

/-- The next symbol, left where it is. -/
def next? : Reader (Option Symbol) :=
  fun c => .ok (c.rest.head?, c)

def token? : Reader (Option Symbol) :=
  fun c => let c := c.dropBlanks; .ok (c.rest.head?, c)

def word : List Char → Reader Unit
  | [] => pure ()
  | expected :: rest => do
    match ← next? with
    | none => failHere .endInValue
    | some s =>
      if s = .char expected then
        step
        word rest
      else failAhead .expectedIdent

/-! Strings -/

def hexValue? (c : Char) : Option Nat :=
  if '0' ≤ c && c ≤ '9' then some (c.toNat - '0'.toNat)
  else if 'a' ≤ c && c ≤ 'f' then some (c.toNat - 'a'.toNat + 10)
  else if 'A' ≤ c && c ≤ 'F' then some (c.toNat - 'A'.toNat + 10)
  else none

def fourHexDigits? : List Symbol → Option Nat
  | .char a :: .char b :: .char c :: .char d :: _ => do
    let a ← hexValue? a
    let b ← hexValue? b
    let c ← hexValue? c
    let d ← hexValue? d
    some (((a * 16 + b) * 16 + c) * 16 + d)
  | _ => none

def hexEscape : Reader Nat :=
  fun c =>
    match c.position.skip? 4 c.rest with
    | none => .error (.placed .endInString c.finish)
    | some position =>
      match fourHexDigits? c.rest with
      | some n => .ok (n, c.advance.advance.advance.advance)
      | none => .error (.placed .invalidEscape position)

def isLeading (n : Nat) : Bool := 0xD800 ≤ n && n ≤ 0xDBFF

def isTrailing (n : Nat) : Bool := 0xDC00 ≤ n && n ≤ 0xDFFF

def pairMark (expected : Char) : Reader Unit := do
  match ← next? with
  | none => failHere .endInString
  | some s => if s = .char expected then step else failAhead .endOfHexEscape

def unicodeEscape : Reader Char := do
  let first ← hexEscape
  if isTrailing first then failHere .loneSurrogate
  else if isLeading first then
    pairMark '\\'
    pairMark 'u'
    let second ← hexEscape
    if isTrailing second then
      pure (Char.ofNat ((first - 0xD800) * 0x400 + (second - 0xDC00) + 0x10000))
    else failHere .loneSurrogate
  else pure (Char.ofNat first)

def shortEscape? : Char → Option Char
  | '"' => some '"'
  | '\\' => some '\\'
  | '/' => some '/'
  | 'b' => some '\x08'
  | 'f' => some '\x0c'
  | 'n' => some '\n'
  | 'r' => some '\r'
  | 't' => some '\t'
  | _ => none

def escape : Reader Char := do
  match ← next? with
  | none => failHere .endInString
  | some (.char 'u') =>
    step
    unicodeEscape
  | some (.char c) =>
    match shortEscape? c with
    | some meaning =>
      step
      pure meaning
    | none => failAhead .invalidEscape
  | some (.stray _) => failAhead .invalidEscape

/-- The number of bytes of a string's value from its first stray byte on, after `more` further bytes
of the value; nothing while there has been no stray byte. -/
def widen (broken : Option Nat) (more : Nat) : Option Nat :=
  broken.map (· + more)

/-- Fails after the closing quote of a string with a stray byte. The fault is placed as many bytes
back as the value has from that byte on, so that escapes, which are longer than what they stand for,
move it towards the end of the string. -/
def failBroken (count : Nat) : Reader String :=
  fun c => .error (.placed .invalidUnicode ⟨c.position.line, c.position.column - count⟩)

/-- Reads a string after its opening quote. `done` holds the characters so far, last one first, and
`broken` the number of bytes of the value from the first stray byte on, which is reported once the
string has ended. -/
def stringFrom (done : List Char) (broken : Option Nat) : Nat → Reader String
  | 0 => failHere .endInString
  | steps + 1 => do
    match ← next? with
    | none => failHere .endInString
    | some (.stray _) =>
      step
      stringFrom done (some (broken.getD 0 + 1)) steps
    | some (.char '"') =>
      step
      match broken with
      | none => pure (String.ofList done.reverse)
      | some count => failBroken count
    | some (.char '\\') =>
      step
      let c ← escape
      stringFrom (c :: done) (widen broken c.utf8Size) steps
    | some (.char c) =>
      step
      if c.toNat < 0x20 then failHere .controlCharacter
      else stringFrom (c :: done) (widen broken c.utf8Size) steps

def string : Reader String :=
  fun c => stringFrom [] none c.steps c

def skipStringFrom : Nat → Reader Unit
  | 0 => failHere .endInString
  | steps + 1 => do
    match ← next? with
    | none => failHere .endInString
    | some (.char '"') => step
    | some (.char '\\') =>
      step
      match ← next? with
      | none => failHere .endInString
      | some (.char 'u') =>
        step
        let _ ← hexEscape
        skipStringFrom steps
      | some (.char c) =>
        if (shortEscape? c).isSome then
          step
          skipStringFrom steps
        else failAhead .invalidEscape
      | some (.stray _) => failAhead .invalidEscape
    | some (.char c) =>
      if c.toNat < 0x20 then failHere .controlCharacter
      else
        step
        skipStringFrom steps
    | some (.stray _) =>
      step
      skipStringFrom steps

def skipString : Reader Unit :=
  fun c => skipStringFrom c.steps c

/-! Numbers -/

def digitsFrom : Nat → Reader (List Nat)
  | 0 => pure []
  | steps + 1 => do
    match ← next? with
    | some (.char c) =>
      match Text.digitValue? c with
      | some d =>
        step
        let rest ← digitsFrom steps
        pure (d :: rest)
      | none => pure []
    | _ => pure []

def digits : Reader (List Nat) :=
  fun c => digitsFrom c.steps c

/-- A number held with at most 64 bits: its value from the leading digits, and how many digits were
left out because the value would not fit. -/
structure Significand where
  value : Nat
  dropped : Nat

def Significand.take (s : Significand) : List Nat → Significand
  | [] => s
  | d :: rest =>
    if s.value * 10 + d ≤ Text.maxWord64 then
      take { s with value := s.value * 10 + d } rest
    else { s with dropped := s.dropped + rest.length + 1 }

def realOf (negative : Bool) (significand : Nat) (exponent : Int) : Reader Number :=
  match Real.ofParts negative significand exponent with
  | some value => pure (.real (Real.text value))
  | none => failHere .numberOutOfRange

def maxExponent : Nat := Nat.pow 2 31 - 1

/-- Reads the digits of an exponent until its value passes `maxExponent`; nothing in that case. -/
def exponentFrom (value : Nat) : Nat → Reader (Option Nat)
  | 0 => pure (some value)
  | steps + 1 => do
    match ← next? with
    | some (.char c) =>
      match Text.digitValue? c with
      | some d =>
        step
        if value * 10 + d ≤ maxExponent then exponentFrom (value * 10 + d) steps
        else pure none
      | none => pure (some value)
    | _ => pure (some value)

def exponentPart (negative : Bool) (significand : Nat) (exponent : Int) : Reader Number := do
  step
  let down ← do
    match ← next? with
    | some (.char '+') =>
      step
      pure false
    | some (.char '-') =>
      step
      pure true
    | _ => pure false
  match ← next? with
  | none => failHere .endInValue
  | some (.char c) =>
    if c.isDigit then
      match ← (fun cursor => exponentFrom 0 cursor.steps cursor : Reader (Option Nat)) with
      | some shift =>
        realOf negative significand (if down then exponent - shift else exponent + shift)
      | none =>
        if significand ≠ 0 ∧ ¬ down then failHere .numberOutOfRange
        else
          let _ ← digits
          pure (.real (if negative then "-0.0" else "0.0"))
    else failAhead .invalidNumber
  | some (.stray _) => failAhead .invalidNumber

def fractionPart (negative : Bool) (whole : Significand) : Reader Number := do
  step
  let ds ← digits
  if ds.isEmpty then
    match ← next? with
    | none => failHere .endInValue
    | some _ => failAhead .invalidNumber
  else
    let taken := Significand.take ⟨whole.value, 0⟩ ds
    let exponent : Int := whole.dropped - (ds.length - taken.dropped : Nat)
    match ← next? with
    | some (.char 'e') => exponentPart negative taken.value exponent
    | some (.char 'E') => exponentPart negative taken.value exponent
    | _ => realOf negative taken.value exponent

def numberTail (negative : Bool) (whole : Significand) : Reader Number := do
  match ← next? with
  | some (.char '.') => fractionPart negative whole
  | some (.char 'e') => exponentPart negative whole.value whole.dropped
  | some (.char 'E') => exponentPart negative whole.value whole.dropped
  | _ =>
    if whole.dropped ≠ 0 then realOf negative whole.value whole.dropped
    else if ¬ negative then pure (.natural whole.value)
    else if whole.value = 0 ∨ Nat.pow 2 63 < whole.value then realOf true whole.value 0
    else pure (.negative whole.value)

def number (negative : Bool) : Reader Number := do
  match ← next? with
  | none => failHere .endInValue
  | some (.char c) =>
    if c = '0' then
      step
      match ← next? with
      | some (.char d) => if d.isDigit then failAhead .invalidNumber else numberTail negative ⟨0, 0⟩
      | _ => numberTail negative ⟨0, 0⟩
    else if c.isDigit then
      let ds ← digits
      numberTail negative (Significand.take ⟨0, 0⟩ ds)
    else failAhead .invalidNumber
  | some (.stray _) => failAhead .invalidNumber

def skipExponent : Reader Unit := do
  step
  match ← next? with
  | some (.char '+') => step
  | some (.char '-') => step
  | _ => pure ()
  match ← next? with
  | some (.char c) =>
    if c.isDigit then
      let _ ← digits
      pure ()
    else failAhead .invalidNumber
  | _ => failAhead .invalidNumber

def skipOptionalExponent : Reader Unit := do
  match ← next? with
  | some (.char 'e') => skipExponent
  | some (.char 'E') => skipExponent
  | _ => pure ()

def skipNumberTail : Reader Unit := do
  match ← next? with
  | some (.char '.') =>
    step
    let ds ← digits
    if ds.isEmpty then failAhead .invalidNumber else skipOptionalExponent
  | _ => skipOptionalExponent

def skipNumber : Reader Unit := do
  match ← next? with
  | some (.char c) =>
    if c = '0' then
      step
      match ← next? with
      | some (.char d) => if d.isDigit then failAhead .invalidNumber else skipNumberTail
      | _ => skipNumberTail
    else if c.isDigit then
      let _ ← digits
      skipNumberTail
    else failAhead .invalidNumber
  | _ => failAhead .invalidNumber

/-! Arrays and objects -/

def Closing := Cursor → Cursor

/-- Leaves an array: over its closing bracket, or over a comma that stands in its place. -/
def leaveArray : Closing := fun c =>
  let c := c.dropBlanks
  match c.rest with
  | .char ']' :: _ => c.advance
  | .char ',' :: _ => c.advance.dropBlanks
  | _ => c

def leaveObject : Closing := fun c =>
  let c := c.dropBlanks
  match c.rest with
  | .char '\x7d' :: _ => c.advance
  | _ => c

def closeArray : Reader Unit := do
  match ← token? with
  | none => failAhead .endInList
  | some s =>
    if s = .char ']' then step
    else if s = .char ',' then
      step
      match ← token? with
      | some t => if t = .char ']' then failAhead .trailingComma else failAhead .trailingCharacters
      | none => failAhead .trailingCharacters
    else failAhead .trailingCharacters

def closeObject : Reader Unit := do
  match ← token? with
  | none => failAhead .endInObject
  | some s =>
    if s = .char '\x7d' then step
    else if s = .char ',' then failAhead .trailingComma
    else failAhead .trailingCharacters

/-- Reads the inside of an array or object, at its opening bracket, and then its end. An open fault
of the inside is placed where the reader gets by leaving from there. -/
def enclosed (leave : Closing) (close : Reader Unit) (inside : Reader α) : Reader α :=
  fun c =>
    if c.depth ≤ 1 then .error (.placed .tooDeep c.ahead)
    else
      match inside { c.advance with depth := c.depth - 1 } with
      | .error fault => .error (fault.move leave).settle
      | .ok (a, after) =>
        match close { after with depth := c.depth } with
        | .ok (_, last) => .ok (a, last)
        | .error fault => .error fault

def inArray (inside : Reader α) : Reader α :=
  enclosed leaveArray closeArray inside

def inObject (inside : Reader α) : Reader α :=
  enclosed leaveObject closeObject inside

def nextElement (first : Bool) : Reader Bool := do
  match ← token? with
  | none => failAhead .endInList
  | some s =>
    if s = .char ']' then pure false
    else if s = .char ',' ∧ ¬ first then
      step
      match ← token? with
      | none => failAhead .endInValue
      | some t => if t = .char ']' then failAhead .trailingComma else pure true
    else if first then pure true
    else failAhead .expectedListCommaOrEnd

/-- Reads the key of the next entry of an object; nothing at its end. -/
def nextKey (first : Bool) : Reader (Option String) := do
  match ← token? with
  | none => failAhead .endInObject
  | some s =>
    if s = .char '\x7d' then pure none
    else if s = .char ',' ∧ ¬ first then
      step
      match ← token? with
      | none => failAhead .endInValue
      | some t =>
        if t = .char '"' then
          step
          some <$> string
        else if t = .char '\x7d' then failAhead .trailingComma
        else failAhead .keyMustBeText
    else if first then
      if s = .char '"' then
        step
        some <$> string
      else failAhead .keyMustBeText
    else failAhead .expectedObjectCommaOrEnd

def colon : Reader Unit := do
  match ← token? with
  | none => failAhead .endInObject
  | some s => if s = .char ':' then step else failAhead .expectedColon

def elementsFrom (element : Reader α) (first : Bool) : Nat → Reader (List α)
  | 0 => failHere .endInList
  | steps + 1 => do
    if ← nextElement first then
      let a ← element
      let rest ← elementsFrom element false steps
      pure (a :: rest)
    else pure []

def elements (element : Reader α) : Reader (List α) :=
  fun c => elementsFrom element true c.steps c

/-- Reads the entries of an object, each by the reader that `entry` gives for its key, after the
key. -/
def entriesFrom (entry : String → σ → Reader σ) (first : Bool) (state : σ) : Nat → Reader σ
  | 0 => failHere .endInObject
  | steps + 1 => do
    match ← nextKey first with
    | some key =>
      let state ← entry key state
      entriesFrom entry false state steps
    | none => pure state

def entries (entry : String → σ → Reader σ) (state : σ) : Reader σ :=
  fun c => entriesFrom entry true state c.steps c

/-! Values -/

/-- Reads a value that is neither array nor object, or tells which of both is next without reading
it. -/
def scalar : Reader Found := do
  match ← token? with
  | some (.char 'n') =>
    step
    word ['u', 'l', 'l']
    pure .null
  | some (.char 't') =>
    step
    word ['r', 'u', 'e']
    pure (.boolean true)
  | some (.char 'f') =>
    step
    word ['a', 'l', 's', 'e']
    pure (.boolean false)
  | some (.char '-') =>
    step
    .number <$> number true
  | some (.char '"') =>
    step
    .text <$> string
  | some (.char '[') => pure .sequence
  | some (.char '\x7b') => pure .map
  | some (.char c) => if c.isDigit then .number <$> number false else failAhead .expectedValue
  | some (.stray _) => failAhead .expectedValue
  | none => failAhead .endInValue

def refuse (expected : String) : Reader α :=
  settled do
    let found ← scalar
    failOpen (.invalidType found expected)

/-- Reads any value, with at most `depth` arrays and objects around its parts. -/
def valueAt : Nat → Reader Value
  | 0 => do
    -- No array or object can be opened here any more.
    match ← scalar with
    | .null => pure .null
    | .boolean b => pure (.boolean b)
    | .number n => pure (.number n)
    | .text s => pure (.text s)
    | .sequence => failAhead .tooDeep
    | .map => failAhead .tooDeep
  | depth + 1 => do
    match ← scalar with
    | .null => pure .null
    | .boolean b => pure (.boolean b)
    | .number n => pure (.number n)
    | .text s => pure (.text s)
    | .sequence => .array <$> inArray (elements (valueAt depth))
    | .map =>
      let entry := fun (key : String) (done : List (String × Value)) => do
        colon
        let v ← valueAt depth
        pure ((key, v) :: done)
      (fun done => .object done.reverse) <$> inObject (entries entry [])

def value : Reader Value :=
  fun c => valueAt c.depth c

inductive Phase where
  | value
  /-- The inside of an array or object just opened. -/
  | opened
  /-- A comma or the end of an array or object. -/
  | after

inductive Frame where
  | array
  | object

def Frame.closing : Frame → Char
  | .array => ']'
  | .object => '\x7d'

def skipKey : Frame → Reader Unit
  | .array => pure ()
  | .object => do
    match ← token? with
    | none => failAhead .endInObject
    | some s => if s = .char '"' then step else failAhead .keyMustBeText
    skipString
    colon

def skipFrom (phase : Phase) (frames : List Frame) : Nat → Reader Unit
  | 0 => failHere .endInValue
  | steps + 1 =>
    match phase, frames with
    | .after, [] => pure ()
    | .opened, [] => pure ()
    | .value, _ => do
      match ← token? with
      | some (.char 'n') =>
        step
        word ['u', 'l', 'l']
        skipFrom .after frames steps
      | some (.char 't') =>
        step
        word ['r', 'u', 'e']
        skipFrom .after frames steps
      | some (.char 'f') =>
        step
        word ['a', 'l', 's', 'e']
        skipFrom .after frames steps
      | some (.char '-') =>
        step
        skipNumber
        skipFrom .after frames steps
      | some (.char '"') =>
        step
        skipString
        skipFrom .after frames steps
      | some (.char '[') =>
        step
        skipFrom .opened (.array :: frames) steps
      | some (.char '\x7b') =>
        step
        skipFrom .opened (.object :: frames) steps
      | some (.char c) =>
        if c.isDigit then
          skipNumber
          skipFrom .after frames steps
        else failAhead .expectedValue
      | some (.stray _) => failAhead .expectedValue
      | none => failAhead .endInValue
    | .opened, frame :: outer => do
      match ← token? with
      | none => failAhead (match frame with | .array => .endInList | .object => .endInObject)
      | some s =>
        if s = .char frame.closing then
          step
          skipFrom .after outer steps
        else
          skipKey frame
          skipFrom .value frames steps
    | .after, frame :: outer => do
      match ← token? with
      | none => failAhead (match frame with | .array => .endInList | .object => .endInObject)
      | some s =>
        if s = .char ',' then
          step
          skipKey frame
          skipFrom .value frames steps
        else if s = .char frame.closing then
          step
          skipFrom .after outer steps
        else
          failAhead (match frame with
            | .array => .expectedListCommaOrEnd
            | .object => .expectedObjectCommaOrEnd)

def skipValue : Reader Unit :=
  fun c => skipFrom .value [] (2 * c.steps) c

def whole (r : Reader α) (symbols : List Symbol) : Except Fault α :=
  let all : Reader α := do
    let a ← r
    match ← token? with
    | none => pure a
    | some _ => failAhead .trailingCharacters
  (all (Cursor.start symbols)).map (·.1)

end Reader

end CostWatch.Json

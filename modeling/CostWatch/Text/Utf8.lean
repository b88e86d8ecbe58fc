/-!
UTF-8 read byte by byte.

A byte sequence is cut into pieces: characters, broken sequences (the longest run of bytes that
begins a character but cannot be continued by the byte that follows) and an unfinished sequence at
the end of the input. Every byte belongs to exactly one piece.
-/

set_option autoImplicit false

namespace CostWatch.Text.Utf8

inductive Piece where
  | char (c : Char)
  | broken (bytes : List UInt8)
  | unfinished (bytes : List UInt8)

/-- A character of which some bytes have been read: the bytes so far, the bits so far, how many
bytes are missing after the next one, and the range that the next one has to lie in. -/
structure Partial where
  bytes : List UInt8
  bits : Nat
  missing : Nat
  low : Nat
  high : Nat

def start (b : UInt8) : Piece ⊕ Partial :=
  let n := b.toNat
  if n < 0x80 then .inl (.char (Char.ofNat n))
  else if 0xC2 ≤ n && n ≤ 0xDF then .inr ⟨[b], n - 0xC0, 0, 0x80, 0xBF⟩
  else if n == 0xE0 then .inr ⟨[b], 0, 1, 0xA0, 0xBF⟩
  else if n == 0xED then .inr ⟨[b], 0xD, 1, 0x80, 0x9F⟩
  else if 0xE1 ≤ n && n ≤ 0xEF then .inr ⟨[b], n - 0xE0, 1, 0x80, 0xBF⟩
  else if n == 0xF0 then .inr ⟨[b], 0, 2, 0x90, 0xBF⟩
  else if 0xF1 ≤ n && n ≤ 0xF3 then .inr ⟨[b], n - 0xF0, 2, 0x80, 0xBF⟩
  else if n == 0xF4 then .inr ⟨[b], 4, 2, 0x80, 0x8F⟩
  else .inl (.broken [b])

def piecesFrom : Option Partial → List UInt8 → List Piece
  | none, [] => []
  | some p, [] => [.unfinished p.bytes]
  | none, b :: rest =>
    match start b with
    | .inl piece => piece :: piecesFrom none rest
    | .inr p => piecesFrom (some p) rest
  | some p, b :: rest =>
    if p.low ≤ b.toNat && b.toNat ≤ p.high then
      let bits := p.bits * 64 + (b.toNat - 0x80)
      match p.missing with
      | 0 => .char (Char.ofNat bits) :: piecesFrom none rest
      | k + 1 => piecesFrom (some ⟨p.bytes ++ [b], bits, k, 0x80, 0xBF⟩) rest
    else
      .broken p.bytes ::
        match start b with
        | .inl piece => piece :: piecesFrom none rest
        | .inr q => piecesFrom (some q) rest

def pieces (bytes : List UInt8) : List Piece :=
  piecesFrom none bytes

/-- Why bytes are not UTF-8: where the first bad sequence begins, and how many bytes it has unless
the input ends inside it. -/
structure Fault where
  index : Nat
  width : Option Nat

def Fault.message (fault : Fault) : String :=
  match fault.width with
  | some width => s!"invalid utf-8 sequence of {width} bytes from index {fault.index}"
  | none => s!"incomplete utf-8 byte sequence from index {fault.index}"

def charsFrom (index : Nat) : List Piece → Except Fault (List Char)
  | [] => .ok []
  | .char c :: rest => (charsFrom (index + c.utf8Size) rest).map (c :: ·)
  | .broken bytes :: _ => .error ⟨index, some bytes.length⟩
  | .unfinished _ :: _ => .error ⟨index, none⟩

def decode (bytes : List UInt8) : Except Fault String :=
  (charsFrom 0 (pieces bytes)).map String.ofList

def decodeLossy (bytes : List UInt8) : String :=
  String.ofList ((pieces bytes).map fun
    | .char c => c
    | _ => '\uFFFD')

def encode (s : String) : List UInt8 :=
  s.toList.flatMap String.utf8EncodeChar

end CostWatch.Text.Utf8

import CostWatch.Json.Source

/-!
What is encoded in UTF-8 is read back as it was: each character is one piece again.
-/

set_option autoImplicit false

namespace CostWatch

namespace Text.Utf8

theorem toNat_byte {n : Nat} (small : n < 256) : (UInt8.ofNat n).toNat = n := by
  rw [UInt8.toNat_ofNat']
  exact Nat.mod_eq_of_lt small

/-! What the first byte of a character starts -/

theorem start_one {n : Nat} (high : n ≤ 0x7F) :
    start (UInt8.ofNat n) = .inl (.char (Char.ofNat n)) := by
  have byte := toNat_byte (n := n) (by omega)
  simp [start, byte, show n < 128 by omega]

theorem start_two {n : Nat} (low : 0xC2 ≤ n) (high : n ≤ 0xDF) :
    start (UInt8.ofNat n) = .inr ⟨[UInt8.ofNat n], n - 0xC0, 0, 0x80, 0xBF⟩ := by
  have byte := toNat_byte (n := n) (by omega)
  simp [start, byte, show ¬n < 128 by omega, low, high]

/-- The range of the second byte depends on the first one, so that no character is written in more
bytes than it needs, and no half of a surrogate pair is written. -/
theorem start_three {n : Nat} (low : 0xE0 ≤ n) (high : n ≤ 0xEF) :
    start (UInt8.ofNat n) = .inr ⟨[UInt8.ofNat n], n - 0xE0, 1,
      if n = 0xE0 then 0xA0 else 0x80, if n = 0xED then 0x9F else 0xBF⟩ := by
  have byte := toNat_byte (n := n) (by omega)
  by_cases first : n = 0xE0
  · subst first
    rfl
  by_cases surrogates : n = 0xED
  · subst surrogates
    rfl
  simp [start, byte, show ¬n < 128 by omega, show ¬n ≤ 0xDF by omega, show 0xE1 ≤ n by omega,
    high, first, surrogates]

theorem start_four {n : Nat} (low : 0xF0 ≤ n) (high : n ≤ 0xF4) :
    start (UInt8.ofNat n) = .inr ⟨[UInt8.ofNat n], n - 0xF0, 2,
      if n = 0xF0 then 0x90 else 0x80, if n = 0xF4 then 0x8F else 0xBF⟩ := by
  have byte := toNat_byte (n := n) (by omega)
  by_cases first : n = 0xF0
  · subst first
    rfl
  by_cases last : n = 0xF4
  · subst last
    rfl
  simp [start, byte, show ¬n < 128 by omega, show ¬n ≤ 0xDF by omega,
    show ¬n ≤ 0xEF by omega, show n ≠ 0xE0 by omega, show n ≠ 0xED by omega,
    show 0xF1 ≤ n by omega, show n ≤ 0xF3 by omega, first, last]

/-! Further bytes -/

theorem piecesFrom_last {p : Partial} {n : Nat} (small : n < 256) (low : p.low ≤ n)
    (high : n ≤ p.high) (last : p.missing = 0) (rest : List UInt8) :
    piecesFrom (some p) (UInt8.ofNat n :: rest) =
      .char (Char.ofNat (p.bits * 64 + (n - 0x80))) :: piecesFrom none rest := by
  simp [piecesFrom, toNat_byte small, low, high, last]

theorem piecesFrom_more {p : Partial} {n k : Nat} (small : n < 256) (low : p.low ≤ n)
    (high : n ≤ p.high) (more : p.missing = k + 1) (rest : List UInt8) :
    piecesFrom (some p) (UInt8.ofNat n :: rest) =
      piecesFrom (some ⟨p.bytes ++ [UInt8.ofNat n], p.bits * 64 + (n - 0x80), k, 0x80, 0xBF⟩)
        rest := by
  simp [piecesFrom, toNat_byte small, low, high, more]

theorem piecesFrom_char (c : Char) (rest : List UInt8) :
    piecesFrom none (String.utf8EncodeChar c ++ rest) = .char c :: piecesFrom none rest := by
  have valid : c.val.toNat < 0xD800 ∨ 0xDFFF < c.val.toNat ∧ c.val.toNat < 0x110000 := c.valid
  have same {n : Nat} (value : n = c.val.toNat) : Char.ofNat n = c := value ▸ c.ofNat_toNat
  rw [String.utf8EncodeChar]
  generalize c.val.toNat = v at valid same
  split
  · next one =>
    rw [List.singleton_append, piecesFrom, start_one one, same rfl]
  split
  · next one two =>
    simp only [List.cons_append, List.nil_append]
    rw [piecesFrom, start_two (by omega) (by omega)]
    dsimp only
    rw [piecesFrom_last (by omega) (by dsimp only; omega) (by dsimp only; omega) rfl, same]
    dsimp only
    omega
  split
  · next one two three =>
    simp only [List.cons_append, List.nil_append]
    rw [piecesFrom, start_three (by omega) (by omega)]
    dsimp only
    rw [piecesFrom_more (by omega) (by dsimp only; split <;> omega)
        (by dsimp only; split <;> omega) rfl,
      piecesFrom_last (by omega) (by dsimp only; omega) (by dsimp only; omega) rfl, same]
    dsimp only
    omega
  · next one two three =>
    simp only [List.cons_append, List.nil_append]
    rw [piecesFrom, start_four (by omega) (by omega)]
    dsimp only
    rw [piecesFrom_more (by omega) (by dsimp only; split <;> omega)
        (by dsimp only; split <;> omega) rfl,
      piecesFrom_more (by omega) (by dsimp only; omega) (by dsimp only; omega) rfl,
      piecesFrom_last (by omega) (by dsimp only; omega) (by dsimp only; omega) rfl, same]
    dsimp only
    omega

theorem pieces_flatMap (cs : List Char) :
    pieces (cs.flatMap String.utf8EncodeChar) = cs.map .char := by
  unfold pieces
  induction cs with
  | nil => rfl
  | cons c rest ih => rw [List.flatMap_cons, piecesFrom_char, ih, List.map_cons]

theorem pieces_encode (s : String) : pieces (encode s) = s.toList.map .char :=
  pieces_flatMap s.toList

theorem charsFrom_map_char (index : Nat) (cs : List Char) :
    charsFrom index (cs.map .char) = .ok cs := by
  induction cs generalizing index with
  | nil => rfl
  | cons c rest ih =>
    rw [List.map_cons, charsFrom, ih]
    rfl

@[simp] theorem decode_encode (s : String) : decode (encode s) = .ok s := by
  rw [decode, pieces_encode, charsFrom_map_char]
  exact congrArg Except.ok String.ofList_toList

theorem encode_injective {s t : String} (same : encode s = encode t) : s = t := by
  have read := congrArg decode same
  rw [decode_encode, decode_encode] at read
  exact Except.ok.inj read

/-! The byte of a newline -/

theorem newline_ne_byte {n : Nat} (low : 0x80 ≤ n) (small : n < 256) : 10 ≠ UInt8.ofNat n := by
  intro same
  have values := congrArg UInt8.toNat same
  rw [toNat_byte small] at values
  have ten : (10 : UInt8).toNat = 10 := rfl
  omega

theorem newline_mem_encodeChar {c : Char} (member : 10 ∈ String.utf8EncodeChar c) : c = '\n' := by
  have valid : c.val.toNat < 0xD800 ∨ 0xDFFF < c.val.toNat ∧ c.val.toNat < 0x110000 := c.valid
  have same : Char.ofNat c.val.toNat = c := c.ofNat_toNat
  rw [String.utf8EncodeChar] at member
  generalize c.val.toNat = v at member valid same
  split at member
  · next one =>
    have values := congrArg UInt8.toNat (List.mem_singleton.mp member)
    rw [toNat_byte (by omega)] at values
    rw [← same, ← values]
    rfl
  -- All bytes of a longer sequence have their first bit set.
  all_goals
    repeat' split at member
    all_goals
      simp (disch := omega) only [List.mem_cons, List.not_mem_nil, newline_ne_byte, or_false] at member

theorem newline_not_mem_encode {s : String} (single : '\n' ∉ s.toList) : 10 ∉ encode s := by
  intro member
  obtain ⟨c, isChar, byte⟩ := List.mem_flatMap.mp member
  exact single (newline_mem_encodeChar byte ▸ isChar)

end Text.Utf8

theorem Json.symbolsOfBytes_encode (s : String) :
    symbolsOfBytes (Text.Utf8.encode s) = symbolsOfText s := by
  rw [symbolsOfBytes, Text.Utf8.pieces_encode, symbolsOfText, List.flatMap_map]
  exact List.map_eq_flatMap.symm

end CostWatch

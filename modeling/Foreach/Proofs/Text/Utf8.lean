import Foreach.Text.Utf8

/-!
The bytes of a text say the text.

Whatever stands behind the bytes of a character, decoding finds the character first. A character has one
byte, two, three or four; each case is decided by the range of its code.
-/

namespace Foreach.Utf8

variable {n k : Nat} {bs : List UInt8}

theorem toNat_ofNat (h : n < 256) : (UInt8.ofNat n).toNat = n := by
  simpa using h

theorem lead_one (h : n < 0x80) : lead (UInt8.ofNat n) = .whole (Char.ofNat n) := by
  simp only [lead, toNat_ofNat (by omega : n < 256), if_pos h]

theorem lead_two (hlow : 0xc2 ≤ n) (hhigh : n < 0xe0) :
    lead (UInt8.ofNat n) = .begun ⟨1, 0x80, 0xbf, n - 0xc0⟩ := by
  simp only [lead, toNat_ofNat (by omega : n < 256)]
  rw [if_neg (by omega), if_neg (by omega), if_pos hhigh]

/-- A character that is begun admits the tail byte with these bits. -/
def Partial.Admits (p : Partial) (n : Nat) : Prop := p.low ≤ 0x80 + n ∧ 0x80 + n ≤ p.high

/-- The first of three bytes admits the tail byte behind it: the narrower ranges leave out only what is
no character or has fewer bytes. -/
theorem lead_three (hlow : 0x800 ≤ k) (hhigh : k < 0x10000) (hhalf : k < 0xd800 ∨ 0xdfff < k) :
    ∃ p, lead (UInt8.ofNat (0xe0 + k / 4096)) = .begun p ∧ p.owed = 2 ∧ p.bits = k / 4096 ∧
      p.Admits (k / 64 % 64) := by
  simp only [lead, Partial.Admits, toNat_ofNat (by omega : 0xe0 + k / 4096 < 256)]
  rw [if_neg (by omega), if_neg (by omega), if_neg (by omega)]
  split
  next => exact ⟨_, rfl, rfl, by simp; omega, by simp; omega⟩
  next =>
    split
    next => exact ⟨_, rfl, rfl, by simp; omega, by simp; omega⟩
    next =>
      rw [if_pos (by omega)]
      exact ⟨_, rfl, rfl, by simp, by simp; omega⟩

/-- The first of four bytes admits the tail byte behind it. -/
theorem lead_four (hlow : 0x10000 ≤ k) (hhigh : k < 0x110000) :
    ∃ p, lead (UInt8.ofNat (0xf0 + k / 262144)) = .begun p ∧ p.owed = 3 ∧ p.bits = k / 262144 ∧
      p.Admits (k / 4096 % 64) := by
  simp only [lead, Partial.Admits, toNat_ofNat (by omega : 0xf0 + k / 262144 < 256)]
  rw [if_neg (by omega), if_neg (by omega), if_neg (by omega), if_neg (by omega), if_neg (by omega),
    if_neg (by omega)]
  split
  next => exact ⟨_, rfl, rfl, by simp; omega, by simp; omega⟩
  next =>
    split
    next => exact ⟨_, rfl, rfl, by simp, by simp; omega⟩
    next =>
      rw [if_pos (by omega)]
      exact ⟨_, rfl, rfl, by simp; omega, by simp; omega⟩

theorem next_tail {p : Partial} (hn : n < 64) (hadmits : p.Admits n) :
    p.next (UInt8.ofNat (0x80 + n)) =
      if p.owed ≤ 1 then some (.inl (Char.ofNat (p.bits * 64 + n)))
      else some (.inr ⟨p.owed - 1, 0x80, 0xbf, p.bits * 64 + n⟩) := by
  have hrange : p.low ≤ 0x80 + n ∧ 0x80 + n ≤ p.high := hadmits
  simp only [Partial.next, toNat_ofNat (by omega : 0x80 + n < 256), Nat.add_sub_cancel_left]
  rw [if_pos hrange]

theorem pieces_of_begun {b : UInt8} {p : Partial} (h : lead b = .begun p) :
    pieces none (b :: bs) = pieces (some p) bs := by
  rw [pieces, h]

/-- A tail byte that is not the last one. -/
theorem pieces_tail {p : Partial} (howed : 1 < p.owed) (hn : n < 64) (hadmits : p.Admits n) :
    pieces (some p) (UInt8.ofNat (0x80 + n) :: bs) =
      pieces (some ⟨p.owed - 1, 0x80, 0xbf, p.bits * 64 + n⟩) bs := by
  rw [pieces, next_tail hn hadmits, if_neg (by omega)]

/-- The last tail byte. -/
theorem pieces_last {p : Partial} (howed : p.owed = 1) (hn : n < 64) (hadmits : p.Admits n) :
    pieces (some p) (UInt8.ofNat (0x80 + n) :: bs) =
      some (Char.ofNat (p.bits * 64 + n)) :: pieces none bs := by
  rw [pieces, next_tail hn hadmits, if_pos (by omega)]

/-- Behind the first tail byte every other one is admitted. -/
theorem admits_of_lt {owed bits : Nat} (hn : n < 64) : (⟨owed, 0x80, 0xbf, bits⟩ : Partial).Admits n := by
  simp only [Partial.Admits]
  omega

theorem pieces_encodeChar (c : Char) (bs : List UInt8) :
    pieces none (encodeChar c ++ bs) = some c :: pieces none bs := by
  have hvalid : c.toNat < 0xd800 ∨ 0xdfff < c.toNat ∧ c.toNat < 0x110000 := c.valid
  have hmod {m : Nat} : m % 64 < 64 := Nat.mod_lt _ (by decide)
  simp only [encodeChar]
  split
  next hone => simp [pieces, lead_one hone]
  next hone =>
    split
    next htwo =>
      have hbits : (0xc0 + c.toNat / 64 - 0xc0) * 64 + c.toNat / 1 % 64 = c.toNat := by omega
      simp only [List.cons_append, List.nil_append]
      rw [pieces_of_begun (lead_two (by omega) (by omega)), pieces_last rfl hmod (admits_of_lt hmod), hbits, Char.ofNat_toNat]
    next htwo =>
      split
      next hthree =>
        obtain ⟨p, hlead, howed, hp, hadmits⟩ := lead_three (by omega) hthree (by omega)
        have hbits : (p.bits * 64 + c.toNat / 64 % 64) * 64 + c.toNat / 1 % 64 = c.toNat := by omega
        simp only [List.cons_append, List.nil_append]
        rw [pieces_of_begun hlead, pieces_tail (by omega) hmod hadmits, pieces_last (by simp [howed]) hmod (admits_of_lt hmod),
          hbits, Char.ofNat_toNat]
      next hthree =>
        obtain ⟨p, hlead, howed, hp, hadmits⟩ := lead_four (k := c.toNat) (by omega) (by omega)
        have hbits : ((p.bits * 64 + c.toNat / 4096 % 64) * 64 + c.toNat / 64 % 64) * 64
            + c.toNat / 1 % 64 = c.toNat := by omega
        simp only [List.cons_append, List.nil_append]
        rw [pieces_of_begun hlead, pieces_tail (by omega) hmod hadmits,
          pieces_tail (by simp [howed]) hmod (admits_of_lt hmod),
          pieces_last (by simp [howed]) hmod (admits_of_lt hmod), hbits, Char.ofNat_toNat]

theorem encode_append (cs ds : List Char) : encode (cs ++ ds) = encode cs ++ encode ds := List.flatMap_append

/-- The pieces of what encodes a text are its characters. -/
theorem pieces_encode (cs : List Char) : pieces none (encode cs) = cs.map some := by
  induction cs with
  | nil => rfl
  | cons c cs ih => rw [encode, List.flatMap_cons, pieces_encodeChar, ← encode, ih, List.map_cons]

theorem decode_encode (cs : List Char) : decode (encode cs) = some cs := by
  rw [decode, pieces_encode]
  induction cs with
  | nil => rfl
  | cons c cs ih => simp [ih]

theorem decodeLossy_encode (cs : List Char) : decodeLossy (encode cs) = cs := by
  rw [decodeLossy, pieces_encode, List.map_map]
  exact List.map_id cs

end Foreach.Utf8

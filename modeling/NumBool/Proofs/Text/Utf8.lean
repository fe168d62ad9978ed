import NumBool.Text.Utf8

/-!
# Reading back what is written in UTF-8

The bytes of a character are read back as this character, whatever follows
(`decodeFrom_utf8EncodeChar`), so every text is read back from its bytes
(`decode_encode`).  The ranges in which the second byte of a long form has to lie are no
obstacle: a character is written in its shortest form, it is no surrogate, and its code
point is not too large.
-/

namespace NumBool.Text.Utf8

/-! ## What a first byte tells -/

theorem lead?_two {v : Nat} (hlo : 0x80 ≤ v) (hhi : v ≤ 0x7FF) :
    lead? (v / 64 + 0xC0) = some (v / 64, 1, 0x80, 0xBF) := by
  have hrange : 0xC2 ≤ v / 64 + 0xC0 ∧ v / 64 + 0xC0 ≤ 0xDF := by omega
  simp [lead?, hrange]

theorem exists_lead?_three {v : Nat} (hlo : 0x800 ≤ v) (hhi : v ≤ 0xFFFF)
    (hsurrogate : v < 0xD800 ∨ 0xDFFF < v) :
    ∃ lo hi, lead? (v / 4096 + 0xE0) = some (v / 4096, 2, lo, hi) ∧
      lo ≤ v / 64 % 64 + 0x80 ∧ v / 64 % 64 + 0x80 ≤ hi := by
  have htwo : ¬ (v / 4096 + 0xE0 ≤ 0xDF) := by omega
  rcases Nat.eq_zero_or_pos (v / 4096) with hzero | hpos
  · exact ⟨0xA0, 0xBF, by simp [lead?, hzero], by omega, by omega⟩
  by_cases hgap : v / 4096 = 0xD
  · exact ⟨0x80, 0x9F, by simp [lead?, hgap], by omega, by omega⟩
  · refine ⟨0x80, 0xBF, ?_, by omega, by omega⟩
    have hrange : 0xE1 ≤ v / 4096 + 0xE0 ∧ v / 4096 + 0xE0 ≤ 0xEF := by omega
    have hne : v / 4096 ≠ 0 := Nat.pos_iff_ne_zero.mp hpos
    simp [lead?, htwo, hrange, hgap, hne]

theorem exists_lead?_four {v : Nat} (hlo : 0x10000 ≤ v) (hhi : v ≤ 0x10FFFF) :
    ∃ lo hi, lead? (v / 262144 + 0xF0) = some (v / 262144, 3, lo, hi) ∧
      lo ≤ v / 4096 % 64 + 0x80 ∧ v / 4096 % 64 + 0x80 ≤ hi := by
  have hquotient : v / 262144 = 0 ∨ (1 ≤ v / 262144 ∧ v / 262144 ≤ 3) ∨ v / 262144 = 4 := by omega
  rcases hquotient with hzero | hrange | hfour
  · exact ⟨0x90, 0xBF, by simp [lead?, hzero], by omega, by omega⟩
  · refine ⟨0x80, 0xBF, ?_, by omega, by omega⟩
    have hlead : 0xF1 ≤ v / 262144 + 0xF0 ∧ v / 262144 + 0xF0 ≤ 0xF3 := by omega
    have hshort : ¬ (v / 262144 + 0xF0 ≤ 0xDF) ∧ ¬ (v / 262144 + 0xF0 ≤ 0xEF) := by omega
    have hne : v / 262144 ≠ 0 := by omega
    simp [lead?, hlead, hshort, hne]
  · exact ⟨0x80, 0x8F, by simp [lead?, hfour], by omega, by omega⟩

/-! ## One byte further -/

theorem decodeFrom_lead {b : UInt8} {code owed lo hi : Nat} (hb : 0x80 ≤ b.toNat)
    (hlead : lead? b.toNat = some (code, owed, lo, hi)) (rest : List UInt8) (position : Nat) :
    decodeFrom (b :: rest) position none =
      decodeFrom rest (position + 1) (some ⟨b, position, 1, code, owed, lo, hi⟩) := by
  rw [decodeFrom, if_neg (Nat.not_lt.mpr hb), hlead]

theorem decodeFrom_next {b : UInt8} {p : Pending} (hlo : p.lo ≤ b.toNat) (hhi : b.toNat ≤ p.hi)
    (howed : p.owed ≠ 1) (rest : List UInt8) (position : Nat) :
    decodeFrom (b :: rest) position (some p) =
      decodeFrom rest (position + 1) (some ⟨p.first, p.position, p.count + 1,
        p.code * 64 + (b.toNat - 0x80), p.owed - 1, 0x80, 0xBF⟩) := by
  rw [decodeFrom, if_pos (by simp [hlo, hhi])]
  simp only [if_neg howed]

theorem decodeFrom_last {b : UInt8} {p : Pending} (hlo : p.lo ≤ b.toNat) (hhi : b.toNat ≤ p.hi)
    (howed : p.owed = 1) (rest : List UInt8) (position : Nat) :
    decodeFrom (b :: rest) position (some p) =
      consText (Char.ofNat (p.code * 64 + (b.toNat - 0x80)))
        (decodeFrom rest (position + 1) none) := by
  rw [decodeFrom, if_pos (by simp [hlo, hhi])]
  simp only [if_pos howed]

/-! ## Whole characters -/

theorem toNat_byte {n m : Nat} (hn : n = m) (hm : m < 256) : (UInt8.ofNat n).toNat = m := by
  rw [UInt8.toNat_ofNat', Nat.mod_eq_of_lt (by omega), hn]

theorem decodeFrom_two {v : Nat} (hlo : 0x80 ≤ v) (hhi : v ≤ 0x7FF) (rest : List UInt8)
    (position : Nat) :
    decodeFrom (UInt8.ofNat (v / 64 % 32 + 192) :: UInt8.ofNat (v % 64 + 128) :: rest) position
        none =
      consText (Char.ofNat v) (decodeFrom rest (position + 2) none) := by
  have hfirst : (UInt8.ofNat (v / 64 % 32 + 192)).toNat = v / 64 + 0xC0 :=
    toNat_byte (by omega) (by omega)
  have hsecond : (UInt8.ofNat (v % 64 + 128)).toNat = v % 64 + 0x80 := toNat_byte rfl (by omega)
  have hcode : v / 64 * 64 + (v % 64 + 0x80 - 0x80) = v := by omega
  rw [decodeFrom_lead (by omega) (hfirst ▸ lead?_two hlo hhi),
    decodeFrom_last (by simp only; omega) (by simp only; omega) rfl, hsecond, hcode]

theorem decodeFrom_three {v : Nat} (hlo : 0x800 ≤ v) (hhi : v ≤ 0xFFFF)
    (hsurrogate : v < 0xD800 ∨ 0xDFFF < v) (rest : List UInt8) (position : Nat) :
    decodeFrom (UInt8.ofNat (v / 4096 % 16 + 224) :: UInt8.ofNat (v / 64 % 64 + 128) ::
        UInt8.ofNat (v % 64 + 128) :: rest) position none =
      consText (Char.ofNat v) (decodeFrom rest (position + 3) none) := by
  have hfirst : (UInt8.ofNat (v / 4096 % 16 + 224)).toNat = v / 4096 + 0xE0 :=
    toNat_byte (by omega) (by omega)
  have hsecond : (UInt8.ofNat (v / 64 % 64 + 128)).toNat = v / 64 % 64 + 0x80 :=
    toNat_byte rfl (by omega)
  have hthird : (UInt8.ofNat (v % 64 + 128)).toNat = v % 64 + 0x80 := toNat_byte rfl (by omega)
  have hcode : (v / 4096 * 64 + (v / 64 % 64 + 0x80 - 0x80)) * 64 + (v % 64 + 0x80 - 0x80) = v := by
    omega
  obtain ⟨lo, hi, hlead, hslo, hshi⟩ := exists_lead?_three hlo hhi hsurrogate
  rw [decodeFrom_lead (by omega) (hfirst ▸ hlead),
    decodeFrom_next (by simp only; omega) (by simp only; omega) (by simp),
    decodeFrom_last (by simp only; omega) (by simp only; omega) rfl, hsecond, hthird, hcode]

theorem decodeFrom_four {v : Nat} (hlo : 0x10000 ≤ v) (hhi : v ≤ 0x10FFFF) (rest : List UInt8)
    (position : Nat) :
    decodeFrom (UInt8.ofNat (v / 262144 % 8 + 240) :: UInt8.ofNat (v / 4096 % 64 + 128) ::
        UInt8.ofNat (v / 64 % 64 + 128) :: UInt8.ofNat (v % 64 + 128) :: rest) position none =
      consText (Char.ofNat v) (decodeFrom rest (position + 4) none) := by
  have hfirst : (UInt8.ofNat (v / 262144 % 8 + 240)).toNat = v / 262144 + 0xF0 :=
    toNat_byte (by omega) (by omega)
  have hsecond : (UInt8.ofNat (v / 4096 % 64 + 128)).toNat = v / 4096 % 64 + 0x80 :=
    toNat_byte rfl (by omega)
  have hthird : (UInt8.ofNat (v / 64 % 64 + 128)).toNat = v / 64 % 64 + 0x80 :=
    toNat_byte rfl (by omega)
  have hfourth : (UInt8.ofNat (v % 64 + 128)).toNat = v % 64 + 0x80 := toNat_byte rfl (by omega)
  have hcode : ((v / 262144 * 64 + (v / 4096 % 64 + 0x80 - 0x80)) * 64 +
      (v / 64 % 64 + 0x80 - 0x80)) * 64 + (v % 64 + 0x80 - 0x80) = v := by omega
  obtain ⟨lo, hi, hlead, hslo, hshi⟩ := exists_lead?_four hlo hhi
  rw [decodeFrom_lead (by omega) (hfirst ▸ hlead),
    decodeFrom_next (by simp only; omega) (by simp only; omega) (by simp),
    decodeFrom_next (by simp only; omega) (by simp only; omega) (by simp),
    decodeFrom_last (by simp only; omega) (by simp only; omega) rfl, hsecond, hthird, hfourth,
    hcode]

theorem toNat_cases (c : Char) : c.toNat < 0xD800 ∨ 0xDFFF < c.toNat ∧ c.toNat ≤ 0x10FFFF := by
  rcases c.valid with hlow | ⟨hlo, hhi⟩
  · exact .inl hlow
  · exact .inr ⟨hlo, Nat.le_of_lt_succ hhi⟩

/-- The bytes of a character are read back, whatever follows. -/
theorem decodeFrom_utf8EncodeChar (c : Char) (rest : List UInt8) (position : Nat) :
    decodeFrom (String.utf8EncodeChar c ++ rest) position none =
      consText c (decodeFrom rest (position + (String.utf8EncodeChar c).length) none) := by
  have hvalid := toNat_cases c
  have hchar : Char.ofNat c.toNat = c := Char.ofNat_toNat c
  have hval : c.val.toNat = c.toNat := rfl
  unfold String.utf8EncodeChar
  simp only [hval]
  split
  · next hone =>
      have hfirst : (UInt8.ofNat c.toNat).toNat = c.toNat := toNat_byte rfl (by omega)
      rw [List.singleton_append, decodeFrom, hfirst, if_pos (by omega), hchar]
      rfl
  next hone =>
  split
  · next htwo =>
      have hread := decodeFrom_two (v := c.toNat) (by omega) htwo rest position
      rw [hchar] at hread
      exact hread
  next htwo =>
  split
  · next hthree =>
      have hread := decodeFrom_three (v := c.toNat) (by omega) hthree (by omega) rest position
      rw [hchar] at hread
      exact hread
  · next hthree =>
      have hread := decodeFrom_four (v := c.toNat) (by omega) (by omega) rest position
      rw [hchar] at hread
      exact hread

theorem decodeFrom_encode (text : List Char) (position : Nat) :
    decodeFrom (encode text) position none = .ok text := by
  induction text generalizing position with
  | nil => rfl
  | cons c text ih =>
      rw [encode, List.flatMap_cons, decodeFrom_utf8EncodeChar]
      change consText c (decodeFrom (encode text) _ none) = .ok (c :: text)
      rw [ih]
      rfl

/-- A text is read back from its bytes. -/
theorem decode_encode (text : List Char) : decode (encode text) = .ok text :=
  decodeFrom_encode text 0

end NumBool.Text.Utf8

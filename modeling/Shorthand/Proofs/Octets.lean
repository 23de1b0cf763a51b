import Shorthand.Text.Utf8

/-!
# UTF-8 there and back

The octets of a character are read as that character, whatever follows them
(`decodeFrom_encodeChar`), by the number of octets it takes: one, two, three or four.  So no text is
lost in its octets:

    decode (encode cs) = .ok cs                                                    (decode_encode)
    encode cs = encode ds ↔ cs = ds                                                (encode_inj)
-/

namespace Shorthand.Text.Utf8

/-! ## Octets as numbers -/

/-- Surrogates are no characters. -/
theorem toNat_bounds (c : Char) :
    c.toNat < 0xD800 ∨ 0xDFFF < c.toNat ∧ c.toNat < 0x110000 := c.valid

theorem toNat_toUInt8 {n : Nat} (h : n < 256) : n.toUInt8.toNat = n := by
  rw [Nat.toUInt8, UInt8.toNat_ofNat_of_lt' h]

theorem le_toUInt8 {n : Nat} (h : n < 256) (k : UInt8) : k ≤ n.toUInt8 ↔ k.toNat ≤ n := by
  rw [UInt8.le_iff_toNat_le, toNat_toUInt8 h]

theorem toUInt8_le {n : Nat} (h : n < 256) (k : UInt8) : n.toUInt8 ≤ k ↔ n ≤ k.toNat := by
  rw [UInt8.le_iff_toNat_le, toNat_toUInt8 h]

theorem toUInt8_lt {n : Nat} (h : n < 256) (k : UInt8) : n.toUInt8 < k ↔ n < k.toNat := by
  rw [UInt8.lt_iff_toNat_lt, toNat_toUInt8 h]

theorem toUInt8_eq {n : Nat} (h : n < 256) (k : UInt8) : n.toUInt8 = k ↔ n = k.toNat := by
  rw [← UInt8.toNat_inj, toNat_toUInt8 h]

/-! ## Octets after the first -/

/-- An octet that carries six bits continues a character. -/
theorem isTail_add {x : Nat} (hx : x < 0x40) : isTail (0x80 + x).toUInt8 = true := by
  have h : 0x80 + x < 256 := by omega
  simp only [isTail, le_toUInt8 h, toUInt8_le h, Bool.and_eq_true, decide_eq_true_eq,
    UInt8.reduceToNat]
  omega

theorem isSecondOfThree_add {l x : Nat} (hl : l < 0x10) (hx : x < 0x40) (h0 : l = 0 → 0x20 ≤ x)
    (hD : l = 0xD → x < 0x20) :
    isSecondOfThree (0xE0 + l).toUInt8 (0x80 + x).toUInt8 = true := by
  have ha : 0xE0 + l < 256 := by omega
  have hb : 0x80 + x < 256 := by omega
  unfold isSecondOfThree
  simp only [beq_iff_eq, toUInt8_eq ha, le_toUInt8 hb, toUInt8_le hb, UInt8.reduceToNat]
  split
  · simp only [Bool.and_eq_true, decide_eq_true_eq]
    omega
  · split
    · simp only [Bool.and_eq_true, decide_eq_true_eq]
      omega
    · exact isTail_add hx

theorem isSecondOfFour_add {l x : Nat} (hl : l < 5) (hx : x < 0x40) (h0 : l = 0 → 0x10 ≤ x)
    (h4 : l = 4 → x < 0x10) :
    isSecondOfFour (0xF0 + l).toUInt8 (0x80 + x).toUInt8 = true := by
  have ha : 0xF0 + l < 256 := by omega
  have hb : 0x80 + x < 256 := by omega
  unfold isSecondOfFour
  simp only [beq_iff_eq, toUInt8_eq ha, le_toUInt8 hb, toUInt8_le hb, UInt8.reduceToNat]
  split
  · simp only [Bool.and_eq_true, decide_eq_true_eq]
    omega
  · split
    · simp only [Bool.and_eq_true, decide_eq_true_eq]
      omega
    · exact isTail_add hx

/-! ## Characters -/

theorem decodeFrom_one (i : Nat) {n : Nat} (hn : n < 0x80) (rest : List UInt8) :
    decodeFrom i (n.toUInt8 :: rest) = (decodeFrom (i + 1) rest).map (Char.ofNat n :: ·) := by
  have ha : n < 256 := by omega
  rw [decodeFrom.eq_def]
  simp only [toUInt8_lt ha, toNat_toUInt8 ha]
  exact if_pos hn

theorem decodeFrom_two (i : Nat) {l x : Nat} (hl : 2 ≤ l ∧ l < 0x20) (hx : x < 0x40)
    (rest : List UInt8) :
    decodeFrom i ((0xC0 + l).toUInt8 :: (0x80 + x).toUInt8 :: rest) =
      (decodeFrom (i + 2) rest).map (Char.ofNat (l * 0x40 + x) :: ·) := by
  have ha : 0xC0 + l < 256 := by omega
  have hb : 0x80 + x < 256 := by omega
  rw [decodeFrom]
  simp only [toUInt8_lt ha, le_toUInt8 ha, toUInt8_le ha, UInt8.reduceToNat]
  rw [if_neg (by omega), if_pos (by simp; omega), if_pos (isTail_add hx)]
  simp only [charOf, List.foldl_cons, List.foldl_nil, toNat_toUInt8 ha, toNat_toUInt8 hb,
    Nat.add_sub_cancel_left]

theorem decodeFrom_three (i : Nat) {l x y : Nat} (hl : l < 0x10) (hx : x < 0x40) (hy : y < 0x40)
    (h0 : l = 0 → 0x20 ≤ x) (hD : l = 0xD → x < 0x20) (rest : List UInt8) :
    decodeFrom i ((0xE0 + l).toUInt8 :: (0x80 + x).toUInt8 :: (0x80 + y).toUInt8 :: rest) =
      (decodeFrom (i + 3) rest).map (Char.ofNat ((l * 0x40 + x) * 0x40 + y) :: ·) := by
  have ha : 0xE0 + l < 256 := by omega
  have hb : 0x80 + x < 256 := by omega
  have hc : 0x80 + y < 256 := by omega
  rw [decodeFrom]
  simp only [toUInt8_lt ha, le_toUInt8 ha, toUInt8_le ha, UInt8.reduceToNat]
  rw [if_neg (by omega), if_neg (by simp; omega), if_pos (by simp; omega),
    if_pos (isSecondOfThree_add hl hx h0 hD), if_pos (isTail_add hy)]
  simp only [charOf, List.foldl_cons, List.foldl_nil, toNat_toUInt8 ha, toNat_toUInt8 hb,
    toNat_toUInt8 hc, Nat.add_sub_cancel_left]

theorem decodeFrom_four (i : Nat) {l x y z : Nat} (hl : l < 5) (hx : x < 0x40) (hy : y < 0x40)
    (hz : z < 0x40) (h0 : l = 0 → 0x10 ≤ x) (h4 : l = 4 → x < 0x10) (rest : List UInt8) :
    decodeFrom i ((0xF0 + l).toUInt8 :: (0x80 + x).toUInt8 :: (0x80 + y).toUInt8 ::
        (0x80 + z).toUInt8 :: rest) =
      (decodeFrom (i + 4) rest).map
        (Char.ofNat (((l * 0x40 + x) * 0x40 + y) * 0x40 + z) :: ·) := by
  have ha : 0xF0 + l < 256 := by omega
  have hb : 0x80 + x < 256 := by omega
  have hc : 0x80 + y < 256 := by omega
  have hd : 0x80 + z < 256 := by omega
  rw [decodeFrom]
  simp only [toUInt8_lt ha, le_toUInt8 ha, toUInt8_le ha, UInt8.reduceToNat]
  rw [if_neg (by omega), if_neg (by simp; omega), if_neg (by simp; omega),
    if_pos (by simp; omega), if_pos (isSecondOfFour_add hl hx h0 h4), if_pos (isTail_add hy),
    if_pos (isTail_add hz)]
  simp only [charOf, List.foldl_cons, List.foldl_nil, toNat_toUInt8 ha, toNat_toUInt8 hb,
    toNat_toUInt8 hc, toNat_toUInt8 hd, Nat.add_sub_cancel_left]

/-- The octets of a character are read as that character. -/
theorem decodeFrom_encodeChar (c : Char) (i : Nat) (rest : List UInt8) :
    decodeFrom i (encodeChar c ++ rest) =
      (decodeFrom (i + (encodeChar c).length) rest).map (c :: ·) := by
  have hvalid := toNat_bounds c
  have hc : Char.ofNat c.toNat = c := Char.ofNat_toNat c
  -- one case for each number of octets; the third needs that surrogates are no characters
  by_cases h1 : c.toNat < 0x80
  · rw [encodeChar, if_pos h1]
    exact (decodeFrom_one i h1 rest).trans (by rw [hc]; rfl)
  by_cases h2 : c.toNat < 0x800
  · rw [encodeChar, if_neg h1, if_pos h2]
    refine (decodeFrom_two i (by omega) (by omega) rest).trans ?_
    rw [show c.toNat / 0x40 * 0x40 + c.toNat % 0x40 = c.toNat by omega, hc]
    rfl
  by_cases h3 : c.toNat < 0x10000
  · rw [encodeChar, if_neg h1, if_neg h2, if_pos h3]
    refine (decodeFrom_three i (by omega) (by omega) (by omega) (by omega) (by omega) rest).trans ?_
    rw [show (c.toNat / 0x1000 * 0x40 + c.toNat / 0x40 % 0x40) * 0x40 + c.toNat % 0x40 = c.toNat by
      omega, hc]
    rfl
  · rw [encodeChar, if_neg h1, if_neg h2, if_neg h3]
    refine (decodeFrom_four i (by omega) (by omega) (by omega) (by omega) (by omega) (by omega)
      rest).trans ?_
    rw [show ((c.toNat / 0x40000 * 0x40 + c.toNat / 0x1000 % 0x40) * 0x40 + c.toNat / 0x40 % 0x40) *
      0x40 + c.toNat % 0x40 = c.toNat by omega, hc]
    rfl

/-! ## Texts -/

theorem decodeFrom_encode (i : Nat) (cs : List Char) : decodeFrom i (encode cs) = .ok cs := by
  induction cs generalizing i with
  | nil => rfl
  | cons c cs ih =>
    rw [encode_cons, decodeFrom_encodeChar, ih]
    rfl

/-- Decoding undoes encoding. -/
@[simp]
theorem decode_encode (cs : List Char) : decode (encode cs) = .ok cs := decodeFrom_encode 0 cs

/-- Texts with the same octets are the same. -/
theorem encode_inj {cs ds : List Char} : encode cs = encode ds ↔ cs = ds := by
  refine ⟨fun h => ?_, congrArg encode⟩
  have hok : Except.ok (ε := Breach) cs = .ok ds := by rw [← decode_encode, h, decode_encode]
  exact Except.ok.inj hok

/-! ## Single octets -/

theorem encodeChar_ascii {c : Char} (h : c.toNat < 0x80) : encodeChar c = [c.toNat.toUInt8] :=
  if_pos h

/-- A character beyond ASCII has no octet of ASCII. -/
theorem le_of_mem_encodeChar {c : Char} (h : 0x80 ≤ c.toNat) {b : UInt8} (hb : b ∈ encodeChar c) :
    0x80 ≤ b.toNat := by
  have hvalid := toNat_bounds c
  unfold encodeChar at hb
  dsimp only at hb
  split at hb
  · omega
  split at hb
  · simp only [List.mem_cons, List.not_mem_nil, or_false] at hb
    rcases hb with rfl | rfl <;> rw [toNat_toUInt8 (by omega)] <;> omega
  split at hb
  · simp only [List.mem_cons, List.not_mem_nil, or_false] at hb
    rcases hb with rfl | rfl | rfl <;> rw [toNat_toUInt8 (by omega)] <;> omega
  · simp only [List.mem_cons, List.not_mem_nil, or_false] at hb
    rcases hb with rfl | rfl | rfl | rfl <;> rw [toNat_toUInt8 (by omega)] <;> omega

/-- An octet of ASCII is there as often as its character. -/
theorem count_encode {c : Char} (hc : c.toNat < 0x80) (cs : List Char) :
    (encode cs).count c.toNat.toUInt8 = cs.count c := by
  induction cs with
  | nil => rfl
  | cons d cs ih =>
    have hd : (encodeChar d).count c.toNat.toUInt8 = if d == c then 1 else 0 := by
      by_cases hascii : d.toNat < 0x80
      · have heq : (d.toNat.toUInt8 == c.toNat.toUInt8) = (d == c) := by
          rw [Bool.eq_iff_iff, beq_iff_eq, beq_iff_eq, toUInt8_eq (by omega),
            toNat_toUInt8 (by omega), Char.toNat_inj]
        rw [encodeChar_ascii hascii, List.count_singleton, heq]
      · have hne : d ≠ c := by
          rintro rfl
          exact hascii hc
        rw [if_neg (by simpa using hne), List.count_eq_zero]
        intro hmem
        have hle := le_of_mem_encodeChar (Nat.le_of_not_lt hascii) hmem
        rw [toNat_toUInt8 (by omega)] at hle
        omega
    rw [encode_cons, List.count_append, ih, hd, List.count_cons, Nat.add_comm]

/-- A text has at least as many octets as characters. -/
theorem length_le_length_encode (cs : List Char) : cs.length ≤ (encode cs).length := by
  induction cs with
  | nil => exact Nat.le_refl 0
  | cons c cs ih =>
    have hc : 0 < (encodeChar c).length := by
      unfold encodeChar
      dsimp only
      split
      · exact Nat.one_pos
      split
      · exact Nat.two_pos
      split
      · exact Nat.succ_pos 2
      · exact Nat.succ_pos 3
    rw [encode_cons, List.length_append, List.length_cons]
    omega

end Shorthand.Text.Utf8

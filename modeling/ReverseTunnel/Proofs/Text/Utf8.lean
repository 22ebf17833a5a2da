import ReverseTunnel.Text.Utf8

/-!
A text that was written is read without loss.

At the front of what a text is written as stands its first character, whole and as it was
(`lead_utf8EncodeChar`): each of its bytes is in the range that its place asks for, and their
low bits are the character's number again. So nothing is replaced (`lossy_encode`).
-/

namespace ReverseTunnel.Text.Utf8

variable {a b c d : UInt8}

theorem toNat_ofNat {n : Nat} (h : n < 256) : (UInt8.ofNat n).toNat = n :=
  UInt8.toNat_ofNat_of_lt' h

/-! ## Bytes that continue a character -/

theorem isTail_of_le (hlow : 0x80 ≤ b.toNat) (hhigh : b.toNat ≤ 0xBF) : isTail b = true := by
  simp [isTail, UInt8.le_iff_toNat_le, hlow, hhigh]

theorem toNat_tail (n : Nat) : (UInt8.ofNat (n % 64 + 128)).toNat = n % 64 + 128 := by
  apply toNat_ofNat
  omega

theorem isTail_tail (n : Nat) : isTail (UInt8.ofNat (n % 64 + 128)) = true := by
  apply isTail_of_le <;> rw [toNat_tail] <;> omega

theorem payload_tail (n : Nat) : payload (UInt8.ofNat (n % 64 + 128)) = n % 64 := by
  rw [payload, toNat_tail]
  omega

theorem secondOfThree_of_le (htail : isTail b = true)
    (hlow : a.toNat = 0xE0 → 0xA0 ≤ b.toNat) (hhigh : a.toNat = 0xED → b.toNat ≤ 0x9F) :
    secondOfThree a b = true := by
  simp only [isTail, Bool.and_eq_true, decide_eq_true_eq, UInt8.le_iff_toNat_le,
    UInt8.reduceToNat] at htail
  simp only [secondOfThree, beq_iff_eq, ← UInt8.toNat_inj, UInt8.reduceToNat]
  split
  · simp [UInt8.le_iff_toNat_le]
    omega
  · split
    · simp [UInt8.le_iff_toNat_le]
      omega
    · exact isTail_of_le htail.1 htail.2

theorem secondOfFour_of_le (htail : isTail b = true)
    (hlow : a.toNat = 0xF0 → 0x90 ≤ b.toNat) (hhigh : a.toNat = 0xF4 → b.toNat ≤ 0x8F) :
    secondOfFour a b = true := by
  simp only [isTail, Bool.and_eq_true, decide_eq_true_eq, UInt8.le_iff_toNat_le,
    UInt8.reduceToNat] at htail
  simp only [secondOfFour, beq_iff_eq, ← UInt8.toNat_inj, UInt8.reduceToNat]
  split
  · simp [UInt8.le_iff_toNat_le]
    omega
  · split
    · simp [UInt8.le_iff_toNat_le]
      omega
    · exact isTail_of_le htail.1 htail.2

/-! ## The front of a text -/

theorem lead_one (h : a.toNat < 0x80) (rest : Bytes) :
    lead (a :: rest) = .char (Char.ofNat a.toNat) rest := by
  have hone : a < 0x80 := UInt8.lt_iff_toNat_lt.mpr h
  simp only [lead, hone, if_true]

theorem lead_two (hlow : 0xC2 ≤ a.toNat) (hhigh : a.toNat < 0xE0) (hb : isTail b = true)
    (rest : Bytes) :
    lead (a :: b :: rest) = .char (Char.ofNat (a.toNat % 32 * 64 + payload b)) rest := by
  have hone : ¬a < 0x80 := by simp [UInt8.lt_iff_toNat_lt]; omega
  have hnone : ¬a < 0xC2 := by simp [UInt8.lt_iff_toNat_lt]; omega
  have htwo : a < 0xE0 := UInt8.lt_iff_toNat_lt.mpr hhigh
  simp only [lead, hone, hnone, htwo, hb, if_true, if_false]

theorem lead_three (hlow : 0xE0 ≤ a.toNat) (hhigh : a.toNat < 0xF0)
    (hb : secondOfThree a b = true) (hc : isTail c = true) (rest : Bytes) :
    lead (a :: b :: c :: rest) =
      .char (Char.ofNat (a.toNat % 16 * 4096 + payload b * 64 + payload c)) rest := by
  have hone : ¬a < 0x80 := by simp [UInt8.lt_iff_toNat_lt]; omega
  have hnone : ¬a < 0xC2 := by simp [UInt8.lt_iff_toNat_lt]; omega
  have htwo : ¬a < 0xE0 := by simp [UInt8.lt_iff_toNat_lt]; omega
  have hthree : a < 0xF0 := UInt8.lt_iff_toNat_lt.mpr hhigh
  simp only [lead, hone, hnone, htwo, hthree, hb, hc, if_true, if_false]

theorem lead_four (hlow : 0xF0 ≤ a.toNat) (hhigh : a.toNat < 0xF5)
    (hb : secondOfFour a b = true) (hc : isTail c = true) (hd : isTail d = true) (rest : Bytes) :
    lead (a :: b :: c :: d :: rest) = .char (Char.ofNat
      (a.toNat % 8 * 262144 + payload b * 4096 + payload c * 64 + payload d)) rest := by
  have hone : ¬a < 0x80 := by simp [UInt8.lt_iff_toNat_lt]; omega
  have hnone : ¬a < 0xC2 := by simp [UInt8.lt_iff_toNat_lt]; omega
  have htwo : ¬a < 0xE0 := by simp [UInt8.lt_iff_toNat_lt]; omega
  have hthree : ¬a < 0xF0 := by simp [UInt8.lt_iff_toNat_lt]; omega
  have hfour : a < 0xF5 := UInt8.lt_iff_toNat_lt.mpr hhigh
  simp only [lead, hone, hnone, htwo, hthree, hfour, hb, hc, hd, if_true, if_false]

theorem lead_utf8EncodeChar (x : Char) (rest : Bytes) :
    lead (String.utf8EncodeChar x ++ rest) = .char x rest := by
  -- the numbers that stand for pairs are left out, as they are among the bytes
  have hvalid : x.toNat < 0xD800 ∨ 0xDFFF < x.toNat ∧ x.toNat < 0x110000 := x.valid
  have hx : Char.ofNat x.toNat = x := Char.ofNat_toNat x
  unfold String.utf8EncodeChar
  rw [show x.val.toNat = x.toNat from rfl]
  generalize x.toNat = v at hvalid hx
  dsimp only
  split
  · rename_i hone
    have ha : (UInt8.ofNat v).toNat = v := toNat_ofNat (by omega)
    rw [List.singleton_append, lead_one (by omega), ha, hx]
  split
  · rename_i hone htwo
    have ha : (UInt8.ofNat (v / 64 % 32 + 192)).toNat = v / 64 % 32 + 192 :=
      toNat_ofNat (by omega)
    have hnumber : (v / 64 % 32 + 192) % 32 * 64 + v % 64 = v := by omega
    rw [List.cons_append, List.singleton_append,
      lead_two (by omega) (by omega) (isTail_tail v), payload_tail, ha, hnumber, hx]
  split
  · rename_i hone htwo hthree
    have ha : (UInt8.ofNat (v / 4096 % 16 + 224)).toNat = v / 4096 % 16 + 224 :=
      toNat_ofNat (by omega)
    have hb : secondOfThree (UInt8.ofNat (v / 4096 % 16 + 224))
        (UInt8.ofNat (v / 64 % 64 + 128)) = true := by
      apply secondOfThree_of_le (isTail_tail (v / 64)) <;> rw [ha, toNat_tail] <;> omega
    have hnumber : (v / 4096 % 16 + 224) % 16 * 4096 + v / 64 % 64 * 64 + v % 64 = v := by omega
    rw [List.cons_append, List.cons_append, List.singleton_append,
      lead_three (by omega) (by omega) hb (isTail_tail v), payload_tail, payload_tail, ha,
      hnumber, hx]
  · rename_i hone htwo hthree
    have ha : (UInt8.ofNat (v / 262144 % 8 + 240)).toNat = v / 262144 % 8 + 240 :=
      toNat_ofNat (by omega)
    have hb : secondOfFour (UInt8.ofNat (v / 262144 % 8 + 240))
        (UInt8.ofNat (v / 4096 % 64 + 128)) = true := by
      apply secondOfFour_of_le (isTail_tail (v / 4096)) <;> rw [ha, toNat_tail] <;> omega
    have hnumber : (v / 262144 % 8 + 240) % 8 * 262144 + v / 4096 % 64 * 4096 +
        v / 64 % 64 * 64 + v % 64 = v := by omega
    rw [List.cons_append, List.cons_append, List.cons_append, List.singleton_append,
      lead_four (by omega) (by omega) hb (isTail_tail (v / 64)) (isTail_tail v), payload_tail,
      payload_tail, payload_tail, ha, hnumber, hx]

/-! ## Whole texts -/

theorem lossyChars_utf8Encode (cs acc : List Char) :
    lossyChars (cs.flatMap String.utf8EncodeChar) acc = acc.reverse ++ cs := by
  induction cs generalizing acc with
  | nil =>
    rw [List.flatMap_nil, List.append_nil, lossyChars]
    rfl
  | cons x cs ih =>
    have hlead := lead_utf8EncodeChar x (cs.flatMap String.utf8EncodeChar)
    rw [List.flatMap_cons, lossyChars]
    -- only one of the four things that may stand in front does
    split <;> rename_i h <;> rw [hlead] at h <;> cases h
    rw [ih, List.reverse_cons, List.append_assoc, List.singleton_append]

theorem encode_eq (s : String) : encode s = s.toList.flatMap String.utf8EncodeChar := by
  rw [encode, ← String.ofList_toList (s := s), String.toByteArray_ofList, List.utf8Encode,
    List.data_toByteArray, String.toList_ofList]

/-- Nothing of a text is lost when it is written and read. -/
theorem lossy_encode (s : String) : lossy (encode s) = s := by
  rw [lossy, encode_eq, lossyChars_utf8Encode, List.reverse_nil, List.nil_append,
    String.ofList_toList]

end ReverseTunnel.Text.Utf8

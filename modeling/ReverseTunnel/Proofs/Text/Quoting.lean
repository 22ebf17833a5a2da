import Mathlib.Data.String.Basic
import ReverseTunnel.Text.Blank
import ReverseTunnel.Text.Quoted

/-!
How long a text gets by being quoted.

A character is escaped by at most six bytes for each of its own (`utf8Len_escape_le`), so a
text in quotes is at most six times as long, and two bytes for the quotes. A text of delete
characters is, exactly.
-/

namespace ReverseTunnel.Text

open String (utf8Len)

namespace Quoted

theorem utf8Len_hex (n : Nat) : utf8Len (hex n) = (hex n).length := by
  unfold hex
  induction n using Nat.strongRecOn with
  | ind n ih =>
    have hdigit : ∀ d, d < 16 → utf8Len [Nat.digitChar d] = 1 := by decide
    by_cases hn : n < 16
    · rw [Nat.toDigits_of_lt_base hn, hdigit n hn]
      rfl
    · have hle : 16 ≤ n := by omega
      rw [Nat.toDigits_of_base_le (by decide) hle, String.utf8Len_append, List.length_append,
        ih (n / 16) (by omega), hdigit (n % 16) (Nat.mod_lt n (by decide))]
      rfl

theorem length_hex_le (c : Char) : (hex c.toNat).length + 4 ≤ 6 * c.utf8Size := by
  have hdigits (k : Nat) (hk : 0 < k) (h : c.toNat < 16 ^ k) : (hex c.toNat).length ≤ k :=
    (Nat.length_toDigits_le_iff (by decide) hk).mpr h
  have hvalid : c.toNat < 0x110000 := by
    rcases c.valid with h | h
    · exact h.trans (by decide)
    · exact h.2
  simp only [Char.utf8Size, UInt32.le_iff_toNat_le]
  change (hex c.toNat).length + 4 ≤ 6 * if c.toNat ≤ 127 then 1 else if c.toNat ≤ 2047 then 2 else
    if c.toNat ≤ 65535 then 3 else 4
  split
  · have := hdigits 2 (by decide) (by omega)
    omega
  · have := hdigits 6 (by decide) (by omega)
    split
    · have := hdigits 3 (by decide) (by omega)
      omega
    · split <;> omega

theorem utf8Len_escape_le (c : Char) : utf8Len (escape c) ≤ 6 * c.utf8Size := by
  have hpos : 1 ≤ c.utf8Size := Char.utf8Size_pos c
  unfold escape
  split
  iterate 6
    · decide +kernel
  · split
    · have hhex := length_hex_le c
      have hopening : utf8Len ['\\', 'u', '\x7b'] = 3 := by decide +kernel
      have hclosing : utf8Len ['\x7d'] = 1 := by decide +kernel
      change utf8Len (['\\', 'u', '\x7b'] ++ (hex c.toNat ++ ['\x7d'])) ≤ _
      rw [String.utf8Len_append, String.utf8Len_append, utf8Len_hex, hopening, hclosing]
      omega
    · rw [String.utf8Len_cons, String.utf8Len_nil]
      omega

theorem utf8Len_flatMap_escape_le (cs : List Char) : utf8Len (cs.flatMap escape) ≤ 6 * utf8Len cs := by
  induction cs with
  | nil => exact Nat.le_refl 0
  | cons c cs ih =>
    rw [List.flatMap_cons, String.utf8Len_append, String.utf8Len_cons]
    have := utf8Len_escape_le c
    omega

theorem utf8ByteSize_encode (s : String) :
    (encode s).utf8ByteSize = utf8Len (s.toList.flatMap escape) + 2 := by
  have hquote : Char.utf8Size '"' = 1 := by decide
  rw [encode, String.utf8ByteSize_ofList, String.utf8Len_append, String.utf8Len_cons,
    String.utf8Len_cons, String.utf8Len_nil, hquote]

/-- A text in quotes is at most six times as long, and two bytes. -/
theorem utf8ByteSize_encode_le (s : String) : (encode s).utf8ByteSize ≤ 6 * s.utf8ByteSize + 2 := by
  have hs : s.utf8ByteSize = utf8Len s.toList := by
    rw [← String.utf8ByteSize_ofList, String.ofList_toList]
  rw [utf8ByteSize_encode, hs]
  exact Nat.add_le_add_right (utf8Len_flatMap_escape_le s.toList) 2

end Quoted

/-! ## Delete characters -/

/-- A text of delete characters. -/
def deletes (n : Nat) : String := String.ofList (List.replicate n '\x7f')

theorem utf8ByteSize_deletes (n : Nat) : (deletes n).utf8ByteSize = n := by
  rw [deletes, String.utf8ByteSize_ofList]
  induction n with
  | zero => rfl
  | succ n ih =>
    rw [List.replicate_succ, String.utf8Len_cons, ih]
    rfl

theorem utf8ByteSize_encode_deletes (n : Nat) :
    (Quoted.encode (deletes n)).utf8ByteSize = 6 * n + 2 := by
  have hescape : utf8Len (Quoted.escape '\x7f') = 6 := by decide +kernel
  rw [Quoted.utf8ByteSize_encode, deletes, String.toList_ofList]
  congr 1
  induction n with
  | zero => rfl
  | succ n ih =>
    rw [List.replicate_succ, List.flatMap_cons, String.utf8Len_append, ih, hescape]
    omega

theorem trim_deletes (n : Nat) : trim (deletes n) = deletes n := by
  have hkeeps : (List.replicate n '\x7f').dropWhile isBlank = List.replicate n '\x7f' := by
    cases n with
    | zero => rfl
    | succ n => exact List.dropWhile_cons_of_neg (by decide)
  rw [deletes, trim, String.toList_ofList, trimChars, trimLeft, hkeeps, trimRight, List.reverse_replicate,
    hkeeps, List.reverse_replicate]

end ReverseTunnel.Text

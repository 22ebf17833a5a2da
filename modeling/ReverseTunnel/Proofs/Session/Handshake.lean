import ReverseTunnel.Session.Handshake

/-!
What a handshake looks like from outside: `inspect` finds the data connection of a
session exactly in the byte strings that begin with the handshake of that session.
Bytes that depart from the mark are foreign, fewer bytes than a handshake that fit the
mark are undecided, and what comes behind a handshake is not inspected.
-/

namespace ReverseTunnel.Session.Handshake

@[simp]
theorem length_encode (session : UInt32) : (encode session).length = length := by
  simp [encode, mark, length]

theorem be_of_bytes (a b c d : UInt8) :
    Bytes.be 4 (UInt32.ofNat (Bytes.ofBE [a, b, c, d])).toNat = [a, b, c, d] := by
  have hlt : Bytes.ofBE [a, b, c, d] < 2 ^ 32 := Bytes.ofLE_lt [d, c, b, a]
  have hid : (UInt32.ofNat (Bytes.ofBE [a, b, c, d])).toNat = Bytes.ofBE [a, b, c, d] := by
    simpa using Nat.mod_eq_of_lt hlt
  rw [hid]
  exact Bytes.be_ofBE [a, b, c, d]

theorem of_be_bytes (session : UInt32) :
    UInt32.ofNat (Bytes.ofBE (Bytes.be 4 session.toNat)) = session := by
  rw [Bytes.ofBE_be 4 session.toNat session.toNat_lt]
  simp

theorem be_eq_four (session : UInt32) : ∃ a b c d, Bytes.be 4 session.toNat = [a, b, c, d] := by
  have h := Bytes.length_be 4 session.toNat
  match Bytes.be 4 session.toNat, h with
  | [a, b, c, d], _ => exact ⟨a, b, c, d, rfl⟩

theorem inspect_encode_append (session : UInt32) (rest : Bytes) :
    inspect (encode session ++ rest) = .data session := by
  obtain ⟨a, b, c, d, h⟩ := be_eq_four session
  have hs := of_be_bytes session
  rw [h] at hs
  simp [inspect, encode, mark, h, hs]

theorem eq_encode_append_of_inspect {bs : Bytes} {session : UInt32}
    (h : inspect bs = .data session) : bs = encode session ++ bs.drop length := by
  unfold inspect at h
  split at h
  · cases h
  · rename_i hm
    split at h
    · rename_i x y z u a b c d rest
      have hmark : [x, y, z, u] = mark := by simpa [mark] using hm
      simp only [Verdict.data.injEq] at h
      subst h
      show _ = (mark ++ Bytes.be 4 _) ++ rest
      rw [be_of_bytes, ← hmark]
      rfl
    · cases h

/-- What begins with a handshake, and nothing else, is a data connection. -/
theorem inspect_eq_data_iff {bs : Bytes} {session : UInt32} :
    inspect bs = .data session ↔ encode session <+: bs := by
  constructor
  · intro h
    exact ⟨_, (eq_encode_append_of_inspect h).symm⟩
  · rintro ⟨rest, rfl⟩
    exact inspect_encode_append session rest

/-! ## What is inspected -/

/-- Nothing in the first bytes of a connection departs from the mark. -/
def Fits (bs : Bytes) : Prop := bs <+: mark ∨ mark <+: bs

/-- The number in the four bytes behind the mark. -/
def idOf (bs : Bytes) : UInt32 := UInt32.ofNat (Bytes.ofBE ((bs.drop mark.length).take 4))

theorem fits_iff {bs : Bytes} : Fits bs ↔ bs.take 4 = mark.take (bs.take 4).length := by
  constructor
  · rintro (h | h)
    · have hshort : bs.length ≤ 4 := h.length_le
      rw [List.take_of_length_le hshort]
      exact List.prefix_iff_eq_take.mp h
    · have hmark : bs.take 4 = mark := (List.prefix_iff_eq_take.mp h).symm
      rw [hmark]
      rfl
  · intro h
    rcases Nat.lt_or_ge bs.length 4 with hshort | hlong
    · rw [List.take_of_length_le (Nat.le_of_lt hshort)] at h
      exact .inl (List.prefix_iff_eq_take.mpr h)
    · have hmark : bs.take 4 = mark := by
        rw [h, List.length_take, Nat.min_eq_left hlong]
        rfl
      exact .inr (hmark ▸ List.take_prefix 4 bs)

theorem Fits.of_prefix {bs cs : Bytes} (h : Fits cs) (hbs : bs <+: cs) : Fits bs := by
  rcases h with h | h
  · exact .inl (hbs.trans h)
  · exact List.prefix_or_prefix_of_prefix hbs h

theorem Fits.mark_prefix {bs : Bytes} (h : Fits bs) (hlong : mark.length ≤ bs.length) : mark <+: bs := by
  rcases h with h | h
  · obtain rfl := h.eq_of_length (Nat.le_antisymm h.length_le hlong)
    exact List.prefix_refl _
  · exact h

theorem inspect_eq_foreign_iff {bs : Bytes} : inspect bs = .foreign ↔ ¬Fits bs := by
  rw [fits_iff]
  unfold inspect
  split
  · rename_i h
    exact iff_of_true rfl h
  · rename_i h
    refine iff_of_false ?_ h
    split <;> exact nofun

theorem inspect_of_long {bs : Bytes} (h : Fits bs) (hlong : length ≤ bs.length) :
    inspect bs = .data (idOf bs) := by
  unfold inspect
  rw [if_neg (not_not_intro (fits_iff.mp h))]
  match bs, hlong with
  | _ :: _ :: _ :: _ :: _ :: _ :: _ :: _ :: _, _ => rfl

theorem inspect_of_short {bs : Bytes} (h : Fits bs) (hshort : bs.length < length) :
    inspect bs = .undecided := by
  unfold inspect
  rw [if_neg (not_not_intro (fits_iff.mp h))]
  split
  · simp only [List.length_cons, length] at hshort
    omega
  · rfl

/-- Only the bytes of a handshake are inspected. -/
theorem inspect_take {bs : Bytes} {n : Nat} (hn : length ≤ n) : inspect (bs.take n) = inspect bs := by
  have hfour : (bs.take n).take 4 = bs.take 4 := by
    rw [List.take_take, Nat.min_eq_left (Nat.le_trans (by decide) hn)]
  by_cases h : Fits bs
  · have hfits : Fits (bs.take n) := h.of_prefix (List.take_prefix n bs)
    rcases Nat.lt_or_ge bs.length length with hshort | hlong
    · rw [inspect_of_short h hshort, inspect_of_short hfits]
      exact Nat.lt_of_le_of_lt (List.length_take_le' n bs) hshort
    · have hlong' : length ≤ (bs.take n).length := by
        rw [List.length_take]
        exact Nat.le_min.mpr ⟨hn, hlong⟩
      rw [inspect_of_long h hlong, inspect_of_long hfits hlong', idOf, idOf, List.drop_take,
        List.take_take, Nat.min_eq_left]
      simp only [mark, length, List.length_cons, List.length_nil] at hn ⊢
      omega
  · have hnot : ¬Fits (bs.take n) := by
      rw [fits_iff, hfour]
      rwa [fits_iff] at h
    rw [inspect_eq_foreign_iff.mpr h, inspect_eq_foreign_iff.mpr hnot]

end ReverseTunnel.Session.Handshake

/-!
Byte strings, and whole numbers written into them with a fixed width.

`ofBE` reads back what `be` writes and `ofLE` what `le` writes, for every number
that fits the width; `split?` cuts a string exactly when it is long enough.
-/

namespace ReverseTunnel

/-- A finite string of bytes. -/
abbrev Bytes := List UInt8

namespace Bytes

/-- Whether at least `n` bytes are there. -/
def holds : Nat → Bytes → Bool
  | 0, _ => true
  | _ + 1, [] => false
  | n + 1, _ :: rest => holds n rest

theorem holds_iff (n : Nat) (bs : Bytes) : holds n bs = true ↔ n ≤ bs.length := by
  induction n generalizing bs with
  | zero => simp [holds]
  | succ n ih => cases bs with
    | nil => simp [holds]
    | cons b rest => simp [holds, ih]

/-- The first `n` bytes and what follows them, if there are that many. -/
def split? (n : Nat) (bs : Bytes) : Option (Bytes × Bytes) :=
  if holds n bs then some (bs.take n, bs.drop n) else none

theorem split?_append (front rest : Bytes) :
    split? front.length (front ++ rest) = some (front, rest) := by
  have : holds front.length (front ++ rest) = true := (holds_iff _ _).mpr (by simp)
  simp [split?, this]

theorem eq_append_of_split? {n : Nat} {bs front rest : Bytes}
    (h : split? n bs = some (front, rest)) : bs = front ++ rest ∧ front.length = n := by
  unfold split? at h
  split at h
  · rename_i held
    have := (holds_iff _ _).mp held
    simp only [Option.some.injEq, Prod.mk.injEq] at h
    obtain ⟨rfl, rfl⟩ := h
    simp only [List.take_append_drop, List.length_take, true_and]
    omega
  · cases h

theorem split?_eq_none_iff {n : Nat} {bs : Bytes} : split? n bs = none ↔ bs.length < n := by
  unfold split?
  split <;> rename_i h
  · simp [(holds_iff _ _).mp h]
  · rw [holds_iff] at h
    simp only [true_iff]
    omega

/-- `n` in `width` bytes, least significant first. -/
def le : Nat → Nat → Bytes
  | 0, _ => []
  | width + 1, n => UInt8.ofNat (n % 256) :: le width (n / 256)

/-- The number whose bytes are given least significant first. -/
def ofLE : Bytes → Nat
  | [] => 0
  | b :: rest => b.toNat + 256 * ofLE rest

/-- `n` in `width` bytes, most significant first. -/
def be (width n : Nat) : Bytes := (le width n).reverse

/-- The number whose bytes are given most significant first. -/
def ofBE (bs : Bytes) : Nat := ofLE bs.reverse

/-- How many numbers there are that fit in a number of bytes. -/
def capacity : Nat → Nat
  | 0 => 1
  | width + 1 => 256 * capacity width

@[simp]
theorem length_le (width n : Nat) : (le width n).length = width := by
  induction width generalizing n with
  | zero => rfl
  | succ width ih => simp [le, ih]

@[simp]
theorem length_be (width n : Nat) : (be width n).length = width := by simp [be]

theorem ofLE_le (width n : Nat) (h : n < capacity width) : ofLE (le width n) = n := by
  induction width generalizing n with
  | zero => simp only [capacity] at h; simp [le, ofLE]; omega
  | succ width ih =>
    have hq : n / 256 < capacity width := Nat.div_lt_of_lt_mul h
    have hb : (UInt8.ofNat (n % 256)).toNat = n % 256 := by simp
    rw [le, ofLE, ih _ hq, hb]
    omega

theorem ofLE_lt (bs : Bytes) : ofLE bs < capacity bs.length := by
  induction bs with
  | nil => decide
  | cons b rest ih =>
    have hb : b.toNat < 256 := b.toNat_lt
    simp only [ofLE, List.length_cons, capacity]
    omega

theorem le_ofLE (bs : Bytes) : le bs.length (ofLE bs) = bs := by
  induction bs with
  | nil => rfl
  | cons b rest ih =>
    have hb : b.toNat < 256 := b.toNat_lt
    have hq : (b.toNat + 256 * ofLE rest) / 256 = ofLE rest := by omega
    have hr : (b.toNat + 256 * ofLE rest) % 256 = b.toNat := by omega
    simp only [List.length_cons, le, ofLE, hq, hr, ih, UInt8.ofNat_toNat]

theorem ofBE_be (width n : Nat) (h : n < capacity width) : ofBE (be width n) = n := by
  simp [ofBE, be, ofLE_le width n h]

theorem be_ofBE (bs : Bytes) : be bs.length (ofBE bs) = bs := by
  have := le_ofLE bs.reverse
  simp only [List.length_reverse] at this
  simp [be, ofBE, this]

end Bytes

end ReverseTunnel

import Mathlib.Algebra.Group.Nat.Defs
import Mathlib.Data.List.DropRight
import Mathlib.Data.List.Induction
import ReverseTunnel.Client.Backoff

/-!
The delays of a backoff in closed form.

What is proved (`delays_in_closed_form`): whatever was done with a backoff, the delay that comes
next is the least one, doubled as often as a delay was taken since the last reset, or the greatest
one if that is shorter (`after_eq`). So the delays are bounded and do not get shorter until the
next reset, and looking at one changes nothing. A clock that counts seconds in 64 bits doubles a
delay as far as it can (`doubled`); it holds the double of every delay that fits into 64 bits in
milliseconds (`doubled_of_le`), so that nothing is ever cut short there.

Nothing is assumed: the least delay may be zero, or longer than the greatest.
-/

namespace ReverseTunnel

/-- The longest delay that a clock can hold which counts seconds in 64 bits. -/
def longestDelay : Nat := 2 ^ 64 * 1000 - 1

/-- A delay that is doubled on such a clock; what is too long becomes the longest delay. -/
def doubled (delay : Nat) : Nat := min (delay * 2) longestDelay

theorem doubled_of_le {delay : Nat} (h : delay ≤ 2 ^ 64) : doubled delay = delay * 2 := by
  unfold doubled longestDelay
  omega

namespace Client.Backoff

/-- What can be done with a backoff. -/
inductive Operation where
  | next
  | current
  | reset
  deriving DecidableEq, Repr

/-- The delay that an operation gives, if it gives one, and the backoff afterwards. -/
def perform (b : Backoff) : Operation → Option Nat × Backoff
  | .next => (some b.next.1, b.next.2)
  | .current => (some b.current, b)
  | .reset => (none, b.reset)

/-- A backoff after operations, in order. -/
def after (b : Backoff) (xs : List Operation) : Backoff := xs.foldl (fun b x => (b.perform x).2) b

/-- How many delays were taken since the last reset, or since the start. -/
def takenSinceReset (xs : List Operation) : Nat := (xs.rtakeWhile (· ≠ .reset)).count .next

/-- The delay that comes after operations. -/
def delayAfter (least greatest : Nat) (xs : List Operation) : Nat :=
  min (least * 2 ^ takenSinceReset xs) (max least greatest)

/-! ## Operation by operation -/

theorem takenSinceReset_snoc (xs : List Operation) (x : Operation) :
    takenSinceReset (xs ++ [x]) =
      match x with
      | .next => takenSinceReset xs + 1
      | .current => takenSinceReset xs
      | .reset => 0 := by
  cases x with
  | next => simp [takenSinceReset, List.rtakeWhile_concat_pos]
  | current => simp [takenSinceReset, List.rtakeWhile_concat_pos]
  | reset => simp [takenSinceReset, List.rtakeWhile_concat_neg]

theorem min_double (least bound k : Nat) :
    min (min (least * 2 ^ k) bound * 2) bound = min (least * 2 ^ (k + 1)) bound := by
  rw [Nat.pow_succ, ← Nat.mul_assoc]
  generalize least * 2 ^ k = delay
  omega

theorem after_concat (b : Backoff) (xs : List Operation) (x : Operation) :
    b.after (xs ++ [x]) = ((b.after xs).perform x).2 := by
  rw [after, List.foldl_append]
  rfl

theorem after_eq (least greatest : Nat) (xs : List Operation) :
    (new least greatest).after xs =
      ⟨least, max least greatest, delayAfter least greatest xs⟩ := by
  induction xs using List.reverseRecOn with
  | nil =>
    show (⟨least, max greatest least, least⟩ : Backoff) = _
    have hleast : min (least * 2 ^ 0) (max least greatest) = least := by omega
    rw [Nat.max_comm, delayAfter, takenSinceReset, List.rtakeWhile_nil, List.count_nil, hleast]
  | append_singleton xs x ih =>
    rw [after_concat, ih, delayAfter, delayAfter, takenSinceReset_snoc]
    cases x with
    | next => exact congrArg (Backoff.mk least _) (min_double ..)
    | current => rfl
    | reset =>
      have hleast : min (least * 2 ^ 0) (max least greatest) = least := by omega
      exact congrArg (Backoff.mk least _) hleast.symm

/-! ## The delays themselves -/

theorem delayAfter_bounds (least greatest : Nat) (xs : List Operation) :
    least ≤ delayAfter least greatest xs ∧ delayAfter least greatest xs ≤ max least greatest := by
  have hgrows : least * 1 ≤ least * 2 ^ takenSinceReset xs :=
    Nat.mul_le_mul_left least Nat.one_le_two_pow
  unfold delayAfter
  omega

theorem takenSinceReset_append (xs : List Operation) {more : List Operation} (h : .reset ∉ more) :
    takenSinceReset xs ≤ takenSinceReset (xs ++ more) := by
  induction more using List.reverseRecOn with
  | nil => rw [List.append_nil]
  | append_singleton more x ih =>
    rw [List.mem_append, not_or, List.mem_singleton] at h
    have hbefore := ih h.1
    rw [← List.append_assoc, takenSinceReset_snoc]
    cases x with
    | next => exact Nat.le_succ_of_le hbefore
    | current => exact hbefore
    | reset => exact absurd rfl h.2

/-- As long as a backoff is not reset its delays do not get shorter. -/
theorem delayAfter_mono (least greatest : Nat) (xs : List Operation) {more : List Operation}
    (h : .reset ∉ more) :
    delayAfter least greatest xs ≤ delayAfter least greatest (xs ++ more) := by
  have hpow : 2 ^ takenSinceReset xs ≤ 2 ^ takenSinceReset (xs ++ more) :=
    Nat.pow_le_pow_right Nat.two_pos (takenSinceReset_append xs h)
  exact Nat.le_min.mpr ⟨Nat.le_trans (Nat.min_le_left ..) (Nat.mul_le_mul_left least hpow),
    Nat.min_le_right ..⟩

/-- Whatever was done with a backoff of a least and a greatest delay of 64 bits in milliseconds,
every operation but a reset gives the least delay, doubled as often as a delay was taken since the
last reset, or the greatest one if that is shorter, where a greatest delay below the least counts
as the least. A clock that doubles delays as far as it can hold them doubles this one, so that the
backoff goes on with it; and to look at the current delay changes nothing. So its delays stay
between the two, and do not get shorter until it is reset. -/
theorem delays_in_closed_form (least greatest : UInt64) (xs : List Operation) :
    let b := (new least.toNat greatest.toNat).after xs
    let delay := delayAfter least.toNat greatest.toNat xs
    delay = min (least.toNat * 2 ^ takenSinceReset xs) (max least.toNat greatest.toNat) ∧
    (b.perform .next).1 = some delay ∧ (b.perform .current).1 = some delay ∧
    (b.perform .next).2 = { b with current := min (doubled delay) b.greatest } ∧
    doubled delay = delay * 2 ∧
    (b.perform .current).2 = b ∧
    least.toNat ≤ delay ∧ delay ≤ max least.toNat greatest.toNat ∧
    ∀ more, .reset ∉ more → delay ≤ delayAfter least.toNat greatest.toNat (xs ++ more) := by
  intro b delay
  obtain ⟨hleast, hgreatest⟩ := delayAfter_bounds least.toNat greatest.toNat xs
  have hb : b = ⟨least.toNat, max least.toNat greatest.toNat, delay⟩ := after_eq ..
  have hdoubled : doubled delay = delay * 2 := by
    apply doubled_of_le
    have hl := least.toNat_lt
    have hg := greatest.toNat_lt
    omega
  refine ⟨rfl, ?_, ?_, ?_, hdoubled, rfl, hleast, hgreatest, fun more => delayAfter_mono _ _ xs⟩
  · rw [hb]
    rfl
  · rw [hb]
    rfl
  · rw [hb, hdoubled]
    rfl

/-- At the top of the range: the double of the least delay does not fit into 64 bits. -/
theorem delays_in_closed_form_topOfRange :
    let b := (new 9223372036854775808 18446744073709551615).after [.next, .reset, .next]
    (b.perform .next).1 = some 18446744073709551615 ∧
    (b.perform .next).2.current = 18446744073709551615 ∧
    .reset ∉ [Operation.next, .current] ∧
    delayAfter 9223372036854775808 18446744073709551615 [.next, .reset, .next] ≤
      delayAfter 9223372036854775808 18446744073709551615
        ([.next, .reset, .next] ++ [.next, .current]) := by
  obtain ⟨-, hnext, -, hafter, -, -, -, -, hmono⟩ :=
    delays_in_closed_form 9223372036854775808 18446744073709551615 [.next, .reset, .next]
  exact ⟨hnext, congrArg Backoff.current hafter, by decide, hmono [.next, .current] (by decide)⟩

end Client.Backoff

end ReverseTunnel

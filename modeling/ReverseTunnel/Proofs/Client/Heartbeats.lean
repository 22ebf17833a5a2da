import Mathlib.Data.List.Induction
import ReverseTunnel.Proofs.Client.Knowledge

/-!
The heartbeats of a client on a control connection.

The delay in force is the configured one until an answer to a request dictates another
(`delayInForce`). The moments at which the heartbeats that are due were called for are kept in
the order in which they are kept themselves (`callers`), so that each is due the delay after its
own moment that was in force then (`beats_eq`). A heartbeat that is sent answers one of these
calls and no other does (`heartbeats_are_called_for`). While the link is not closed every call
that was not answered is due (`calls_balance`).
-/

namespace ReverseTunnel.Client

open Control
open Wire (Message)

variable {o : Options} {a : Seal.Aead} {now : Nat}

/-! ## The delay in force -/

/-- The delay before a heartbeat that a message dictates, if it dictates one. -/
def dictated? : Message → Option Nat
  | .openDataPortAck true _ delay _ =>
    if delay = 0 then none else some (max delay.toNat minHeartbeatDelay)
  | _ => none

/-- The delay in force after messages were handled: the one that was dictated last, or the
configured one as long as none was. -/
def delayInForce (o : Options) (ms : List Message) : Nat :=
  ((ms.filterMap dictated?).getLast?).getD o.heartbeatDelay

theorem delayInForce_snoc (o : Options) (ms : List Message) (m : Message) :
    delayInForce o (ms ++ [m]) = (dictated? m).getD (delayInForce o ms) := by
  rw [delayInForce, List.filterMap_append]
  cases hm : dictated? m with
  | none => simp [hm, delayInForce]
  | some delay => simp [hm]

theorem heartbeatDelay_eq (o : Options) (ms : List Message) :
    (known o ms).heartbeatDelay = delayInForce o ms := by
  induction ms using List.reverseRecOn with
  | nil => rfl
  | append_singleton ms m ih =>
    rw [known_snoc, delayInForce_snoc, ← ih]
    cases m with
    | openDataPortAck success message delay port =>
      cases success with
      | false => rfl
      | true =>
        show Session.cadence _ delay = Option.getD (if delay = 0 then none else some _) _
        unfold Session.cadence
        split <;> rfl
    | _ => rfl

/-! ## Step by step -/

/-- A heartbeat. -/
def isBeat : Message → Bool
  | .heartbeat _ => true
  | _ => false

theorem not_mem_eraseP {α : Type} {p : α → Bool} {x : α} {xs : List α} (hne : xs.Pairwise (· ≠ ·))
    (h : xs.find? p = some x) : x ∉ xs.eraseP p := by
  obtain ⟨hx, before, after, rfl, hbefore⟩ := List.find?_eq_some_iff_append.mp h
  rw [List.eraseP_append_right _ (by simpa using hbefore), List.eraseP_cons_of_pos hx]
  have hall := List.pairwise_append.mp hne
  intro hmem
  rcases List.mem_append.mp hmem with hmem | hmem
  · exact hall.2.2 x hmem x List.mem_cons_self rfl
  · exact (List.pairwise_cons.mp hall.2.1).1 x hmem rfl

namespace Serving

variable {s : Serving} {e : ServingEvent}

theorem countP_isBeat (o : Options) (a : Seal.Aead) (now : Nat) (s : Serving) (e : ServingEvent) :
    (s.emittedAt o a now e).countP isBeat =
      if e = .beat ∧ s.link.closed = false ∧ (s.beats.find? (· ≤ now)).isSome then 1 else 0 := by
  cases e with
  | link y => rfl
  | beat =>
    simp only [emittedAt]
    cases s.beats.find? (· ≤ now) with
    | none => exact (if_neg (by simp)).symm
    | some due => cases s.link.closed <;> rfl
  | handle nonce =>
    rw [if_neg (by simp), List.countP_eq_zero]
    simp only [emittedAt]
    split
    · exact fun m hm => absurd hm List.not_mem_nil
    · intro m hm
      have hkind := (response o a now nonce s.session _).emits m hm
      cases m <;> first | exact Bool.false_ne_true | cases hkind
  | dial attempt y =>
    rw [if_neg (by simp), List.countP_eq_zero]
    simp only [emittedAt]
    split
    · exact fun m hm => absurd hm List.not_mem_nil
    · intro m hm
      obtain ⟨x, -, hx⟩ := List.mem_filterMap.mp hm
      cases x <;> cases hx
      exact Bool.false_ne_true

theorem handledAt_cases (s : Serving) (e : ServingEvent) :
    s.handledAt e = [] ∨ ∃ m, s.handledAt e = [m] := by
  cases e with
  | handle nonce =>
    rw [handledAt]
    cases s.link.take? with
    | none => exact .inl rfl
    | some taken => exact .inr ⟨taken.1, rfl⟩
  | _ => exact .inl rfl

theorem length_spent (o : Options) (a : Seal.Aead) (now : Nat) (h : s.link.closed = false)
    (e : ServingEvent) : (if e = .beat then s.beats.eraseP (· ≤ now) else s.beats).length +
      (s.emittedAt o a now e).countP isBeat = s.beats.length := by
  rw [countP_isBeat]
  by_cases hbeat : e = .beat
  · rw [if_pos hbeat, List.length_eraseP]
    by_cases hdue : s.beats.any (· ≤ now) = true
    · have hsome : (s.beats.find? (· ≤ now)).isSome := List.find?_isSome.mpr (List.any_eq_true.mp hdue)
      obtain ⟨due, hmem, -⟩ := List.any_eq_true.mp hdue
      have hpos := List.length_pos_of_mem hmem
      rw [if_pos hdue, if_pos ⟨hbeat, h, hsome⟩]
      omega
    · have hnone : ¬(s.beats.find? (· ≤ now)).isSome := fun hsome =>
        hdue (List.any_eq_true.mpr (List.find?_isSome.mp hsome))
      rw [if_neg hdue, if_neg fun hall => hnone hall.2.2]
      rfl
  · rw [if_neg hbeat, if_neg fun hall => hbeat hall.1]
    rfl

/-- A message that calls for a heartbeat calls for one. -/
theorem length_called (s : Serving) (e : ServingEvent) (due : Nat) :
    (if (s.handledAt e).any callsForBeat then [due] else []).length =
      (s.handledAt e).countP callsForBeat := by
  rcases handledAt_cases s e with hnone | ⟨m, hm⟩
  · rw [hnone]
    rfl
  · rw [hm, List.any_cons, List.any_nil, Bool.or_false, List.countP_singleton]
    cases callsForBeat m <;> rfl

theorem closed_step (o : Options) (a : Seal.Aead) (now : Nat) (h : s.link.closed = true)
    (e : ServingEvent) : (s.step o a now e).1.link.closed = true := by
  have ht := link_turn o a now s e
  generalize (s.step o a now e).1.link = after at ht
  cases ht with
  | moves y => exact Link.closed_move h (Link.move _ y)
  | takes nonce m l ht =>
    obtain ⟨-, hl⟩ := Link.take?_eq_some ht
    exact (Link.aside_emitAll _ l).closed (by rw [hl]; exact h)
  | emits => exact (Link.aside_emitAll _ _).closed h

/-! ## At every moment -/

section Moments

variable (course : Course (stepAt o a) (start o now).1)

/-- A client sends a heartbeat with the event of a moment. -/
def BeatsAt (n : Nat) : Prop := ∃ timestamp,
  .heartbeat timestamp ∈ (course.state n).emittedAt o a (course.happens n).1 (course.happens n).2

/-- A message that calls for a heartbeat is handled with the event of a moment. -/
def CallsAt (n : Nat) : Prop :=
  ∃ m ∈ (course.state n).handledAt (course.happens n).2, callsForBeat m = true

/-- When a heartbeat is due that is called for at a moment. -/
def dueAfter (n : Nat) : Nat := (course.happens n).1 + delayInForce o (handledBefore course n)

/-- The moments at which the heartbeats that are due were called for. -/
def callers : Nat → List Nat
  | 0 => []
  | n + 1 =>
    (if (course.happens n).2 = .beat then
        (callers n).eraseP fun i => decide (dueAfter course i ≤ (course.happens n).1)
      else callers n) ++
    if ((course.state n).handledAt (course.happens n).2).any callsForBeat then [n] else []

/-- Each heartbeat is due when the moment at which it was called for says. -/
theorem beats_eq (n : Nat) : (course.state n).beats = (callers course n).map (dueAfter course) := by
  induction n with
  | zero => rfl
  | succ n ih =>
    have hturn := (turn o a (course.happens n).1 (course.state n) (course.happens n).2).beats
    refine hturn.trans ?_
    rw [callers, List.map_append, ih]
    congr 1
    · split
      · exact List.eraseP_map ..
      · rfl
    · split
      · rw [session_eq_known, heartbeatDelay_eq]
        rfl
      · rfl

theorem callers_sorted (n : Nat) :
    (callers course n).Pairwise (· < ·) ∧ ∀ i ∈ callers course n, i < n ∧ CallsAt course i := by
  induction n with
  | zero => exact ⟨.nil, nofun⟩
  | succ n ih =>
    obtain ⟨hsorted, hpast⟩ := ih
    have hkept : List.Sublist (if (course.happens n).2 = .beat then
        (callers course n).eraseP fun i => decide (dueAfter course i ≤ (course.happens n).1)
      else callers course n) (callers course n) := by
      split
      · exact List.eraseP_sublist
      · exact List.Sublist.refl _
    have hnew : ∀ i ∈ (if ((course.state n).handledAt (course.happens n).2).any callsForBeat then [n]
        else []), i = n ∧ CallsAt course n := by
      intro i hi
      split at hi
      · rename_i hcalls
        exact ⟨List.mem_singleton.mp hi, List.any_eq_true.mp hcalls⟩
      · cases hi
    refine ⟨List.pairwise_append.mpr ⟨hsorted.sublist hkept, ?_, fun i hi j hj => ?_⟩, fun i hi => ?_⟩
    · split
      · exact List.pairwise_singleton _ _
      · exact .nil
    · rw [(hnew j hj).1]
      exact (hpast i (hkept.subset hi)).1
    · rcases List.mem_append.mp hi with hi | hi
      · exact ⟨Nat.lt_succ_of_lt (hpast i (hkept.subset hi)).1, (hpast i (hkept.subset hi)).2⟩
      · obtain ⟨rfl, hcalls⟩ := hnew i hi
        exact ⟨Nat.lt_succ_self i, hcalls⟩

/-- What is not among the moments that wait any more does not come back. -/
theorem not_caller_from {i m n : Nat} (him : i < m) (hmn : m ≤ n) (h : i ∉ callers course m) :
    i ∉ callers course n := by
  induction hmn with
  | refl => exact h
  | @step n hmn ih =>
    intro hi
    rcases List.mem_append.mp hi with hold | hnew
    · split at hold
      · exact ih (List.mem_of_mem_eraseP hold)
      · exact ih hold
    · split at hnew
      · exact Nat.ne_of_lt (Nat.lt_of_lt_of_le him hmn) (List.mem_singleton.mp hnew)
      · cases hnew

variable {course}

/-- A heartbeat that is sent is the first that is due, and it waits no more. -/
theorem caller_of_beats {n : Nat} (h : BeatsAt course n) : ∃ i ∈ callers course n,
    (callers course n).find? (fun i => decide (dueAfter course i ≤ (course.happens n).1)) = some i ∧
      (course.state n).link.closed = false ∧ i ∉ callers course (n + 1) := by
  obtain ⟨timestamp, hmem⟩ := h
  have hone := countP_isBeat o a (course.happens n).1 (course.state n) (course.happens n).2
  have hpos := List.countP_pos_iff.mpr ⟨_, hmem, (rfl : isBeat (.heartbeat timestamp) = true)⟩
  split at hone
  · rename_i hbeats
    obtain ⟨hbeat, hopen, hsome⟩ := hbeats
    rw [beats_eq, List.find?_map, Option.isSome_map] at hsome
    obtain ⟨i, hi⟩ := Option.isSome_iff_exists.mp hsome
    obtain ⟨hsorted, hpast⟩ := callers_sorted course n
    have hmem := List.mem_of_find?_eq_some hi
    refine ⟨i, hmem, hi, hopen, fun hstill => ?_⟩
    rw [callers, if_pos hbeat] at hstill
    rcases List.mem_append.mp hstill with hold | hnew
    · exact not_mem_eraseP (hsorted.imp Nat.ne_of_lt) hi hold
    · split at hnew
      · exact Nat.ne_of_lt (hpast i hmem).1 (List.mem_singleton.mp hnew)
      · cases hnew
  · omega

/-- Every heartbeat that is due goes off on time, as long as the link is not closed. -/
def Punctual (course : Course (stepAt o a) (start o now).1) : Prop :=
  ∀ n, (course.state n).link.closed = false → ∀ due ∈ (course.state n).beats,
    (course.happens n).1 ≤ due

/-- Every heartbeat that a client sends was called for by a message that was handled on the same
connection before, each by another, and is sent when it is due: not before the delay that was in
force then has passed, and exactly when it has if the heartbeats go off on time. -/
theorem heartbeats_are_called_for (course : Course (stepAt o a) (start o now).1) :
    ∃ caller : Nat → Nat,
      (∀ n, BeatsAt course n → caller n < n ∧ CallsAt course (caller n) ∧
        dueAfter course (caller n) ≤ (course.happens n).1 ∧
        (Punctual course → (course.happens n).1 = dueAfter course (caller n))) ∧
      ∀ m n, BeatsAt course m → BeatsAt course n → caller m = caller n → m = n := by
  let caller (n : Nat) : Nat :=
    ((callers course n).find? fun i => decide (dueAfter course i ≤ (course.happens n).1)).getD 0
  have hcaller {n : Nat} (h : BeatsAt course n) : caller n ∈ callers course n ∧
      dueAfter course (caller n) ≤ (course.happens n).1 ∧ (course.state n).link.closed = false ∧
      caller n ∉ callers course (n + 1) := by
    obtain ⟨i, hi, hfirst, hopen, hgone⟩ := caller_of_beats h
    have heq : caller n = i := by
      show Option.getD _ 0 = i
      rw [hfirst, Option.getD_some]
    rw [heq]
    exact ⟨hi, by simpa using List.find?_some hfirst, hopen, hgone⟩
  -- a call that was answered waits no more, so that no later heartbeat answers it
  have hlater {m n : Nat} (hm : BeatsAt course m) (hn : BeatsAt course n) (hmn : m < n) :
      caller m ≠ caller n := by
    intro heq
    obtain ⟨hmem, -, -, hgone⟩ := hcaller hm
    have hlt := ((callers_sorted course m).2 _ hmem).1
    have hnever := not_caller_from course (Nat.lt_succ_of_lt hlt) hmn hgone
    exact hnever (heq ▸ (hcaller hn).1)
  refine ⟨caller, fun n hn => ?_, fun m n hm hn heq => ?_⟩
  · obtain ⟨hmem, hdue, hopen, -⟩ := hcaller hn
    obtain ⟨hlt, hcalls⟩ := (callers_sorted course n).2 _ hmem
    refine ⟨hlt, hcalls, hdue, fun hpunctual => Nat.le_antisymm ?_ hdue⟩
    apply hpunctual n hopen
    rw [beats_eq]
    exact List.mem_map_of_mem hmem
  · rcases Nat.lt_trichotomy m n with hmn | hmn | hmn
    · exact absurd heq (hlater hm hn hmn)
    · exact hmn
    · exact absurd heq.symm (hlater hn hm hmn)

variable (course)

/-- As long as the link is not closed, every call for a heartbeat was answered by one or it is
still due. -/
theorem calls_balance {n : Nat} (h : (course.state n).link.closed = false) :
    (course.state n).beats.length + (emittedBefore course n).countP isBeat =
      (handledBefore course n).countP callsForBeat := by
  induction n with
  | zero => rfl
  | succ n ih =>
    have hopen : (course.state n).link.closed = false := by
      rw [Bool.eq_false_iff]
      exact fun hclosed => Bool.eq_false_iff.mp h (closed_step o a _ hclosed _)
    have hbefore := ih hopen
    have hturn := (turn o a (course.happens n).1 (course.state n) (course.happens n).2).beats
    change (course.state (n + 1)).beats = _ at hturn
    have hspent := length_spent o a (course.happens n).1 hopen (course.happens n).2
    have hcalled := length_called (course.state n) (course.happens n).2
      ((course.happens n).1 + (course.state n).session.heartbeatDelay)
    rw [hturn, List.length_append, hcalled, emittedBefore, handledBefore, List.countP_append,
      List.countP_append]
    omega

end Moments

end Serving

end ReverseTunnel.Client

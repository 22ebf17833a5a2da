import ReverseTunnel.Proofs.Client.Backoff
import ReverseTunnel.Proofs.Client.Options
import ReverseTunnel.Proofs.Client.Stopping

/-!
When a client connects again.

What a client is about ends when an attempt to connect fails or a connection that it served is
finished (`endWith?`).

What is proved (`reconnects_on_schedule`):
1. The backoff of a client is that of a fresh one from which a delay was taken at every end, and
   which was reset at every connection (`backoff_eq`), so that the pause after an end depends on
   nothing but how the attempts before it ended (`pauseAfter`).
2. A client that rests does not connect before its pause is over, and has at most one connection
   that is not finished.

What is assumed: the client is not shut down. That it does not connect too early takes a clock
that does not run backwards (`Forward`), and that it connects at the end of its pause takes a
timer that is not late (`Prompt`).

What is not said: how long an attempt to connect takes.
-/

namespace ReverseTunnel.Client.Loop

open Control
open Backoff (Operation takenSinceReset)
open Options (delays_of_normalize?)

variable {o given : Options} {a : Seal.Aead} {l : Loop} {e : LoopEvent} {now : Nat}

/-! ## Ends and pauses -/

/-- How an attempt to connect ends: it fails, or a connection is made, served and finished. -/
inductive End where
  | failed
  | served
  deriving DecidableEq, Repr

/-- How the attempt of a client to connect ends with an event, if it does. -/
def endWith? (a : Seal.Aead) (l : Loop) (e : Nat × LoopEvent) : Option End :=
  match l.phase, e.2 with
  | .dialing, .dialed false => some .failed
  | .serving s, .serving y =>
    if (s.step l.options a e.1 y).1.link.stage = .finished then some .served else none
  | _, _ => none

/-- How the attempts of a client to connect ended before a moment, in order. -/
def ends (course : Course (stepAt a) (start o)) : Nat → List End
  | 0 => []
  | n + 1 => ends course n ++ ((course.state n).endWith? a (course.happens n)).toList

/-- How many attempts failed in a row at last. -/
def failures (es : List End) : Nat := (es.rtakeWhile (· = .failed)).length

/-- The pause after attempts to connect: the least one, doubled for each attempt that failed since
a connection was served, but not for the first of all. -/
def pauseAfter (least greatest : Nat) (es : List End) : Nat :=
  min (least * 2 ^ (failures es - if .served ∈ es then 0 else 1)) greatest

theorem failures_concat (es : List End) (x : End) :
    failures (es ++ [x]) = match x with
      | .failed => failures es + 1
      | .served => 0 := by
  cases x <;> simp [failures]

theorem failures_replicate (es : List End) (j : Nat) :
    failures (es ++ List.replicate j .failed) = failures es + j := by
  induction j with
  | zero => simp
  | succ j ih =>
    rw [List.replicate_succ', ← List.append_assoc, failures_concat]
    exact congrArg Nat.succ ih

theorem pauseAfter_served {least greatest : Nat} (h : least ≤ greatest) (es : List End) :
    pauseAfter least greatest (es ++ [.served]) = least := by
  have hnone : failures (es ++ [.served]) = 0 := failures_concat es .served
  rw [pauseAfter, hnone, Nat.zero_sub, Nat.pow_zero, Nat.mul_one, Nat.min_eq_left h]

theorem pauseAfter_failedSince (least greatest : Nat) (es : List End) (j : Nat) :
    pauseAfter least greatest (es ++ .served :: List.replicate j .failed) =
      min (least * 2 ^ j) greatest := by
  have hj : failures (es ++ .served :: List.replicate j .failed) = j := by
    rw [List.append_cons, failures_replicate, failures_concat, Nat.zero_add]
  rw [pauseAfter, hj, if_pos (by simp), Nat.sub_zero]

theorem pauseAfter_failed (least greatest j : Nat) :
    pauseAfter least greatest (List.replicate j .failed) = min (least * 2 ^ (j - 1)) greatest := by
  have hj : failures (List.replicate j .failed) = j := by
    rw [← List.nil_append (List.replicate j _), failures_replicate]
    exact Nat.zero_add j
  rw [pauseAfter, hj, if_neg (by simp)]

theorem le_pauseAfter {least greatest : Nat} (h : least ≤ greatest) (es : List End) :
    least ≤ pauseAfter least greatest es :=
  Nat.le_min.mpr ⟨Nat.le_mul_of_pos_right least (Nat.two_pow_pos _), h⟩

/-! ## What is done with the backoff -/

/-- What is done with the backoff of a client for an attempt that ends so. -/
def End.operations : End → List Operation
  | .failed => [.next]
  | .served => [.reset, .next]

/-- What was done with the backoff for the connection that is served. -/
def underway : Phase → List Operation
  | .serving _ => [.reset]
  | _ => []

theorem takenSinceReset_operations (es : List End) :
    takenSinceReset (es.flatMap End.operations) = failures es + if .served ∈ es then 1 else 0 := by
  induction es using List.reverseRecOn with
  | nil => rfl
  | append_singleton es x ih =>
    rw [List.flatMap_append, List.flatMap_singleton, failures_concat]
    cases x with
    | failed =>
      rw [End.operations, Backoff.takenSinceReset_snoc, ih]
      simp only [List.mem_append, List.mem_singleton, reduceCtorEq, or_false]
      omega
    | served =>
      rw [End.operations, List.append_cons, Backoff.takenSinceReset_snoc,
        Backoff.takenSinceReset_snoc]
      simp

/-- What a step of a client that is not shut down makes of its phase and of its backoff. -/
inductive Paces (a : Seal.Aead) (now : Nat) (l : Loop) (e : LoopEvent) : Phase → Backoff → Prop
  | ends (x : End) (hend : l.endWith? a (now, e) = some x) :
      Paces a now l e (.resting (now + l.backoff.current)) l.backoff.next.2
  | makes (h : l.Makes e) :
      Paces a now l e (.serving (Serving.start l.options now).1) l.backoff.reset
  | goesOn (s s' : Serving) (hserving : l.phase = .serving s)
      (hnone : l.endWith? a (now, e) = none) : Paces a now l e (.serving s') l.backoff
  | wakes (till : Nat) (hresting : l.phase = .resting till) (hdue : till ≤ now) (he : e = .wake) :
      Paces a now l e .ready l.backoff
  | connects (hready : l.phase = .ready) (he : e = .go) : Paces a now l e .dialing l.backoff
  | stays (hnone : l.endWith? a (now, e) = none) (hgo : l.phase = .ready → e ≠ .go)
      (hwake : ∀ till, l.phase = .resting till → e = .wake → now < till) :
      Paces a now l e l.phase l.backoff

theorem paces_stays (hnone : l.endWith? a (now, e) = none) (hgo : e ≠ .go) (hwake : e ≠ .wake) :
    Paces a now l e l.phase l.backoff :=
  .stays hnone (fun _ => hgo) fun _ _ he => absurd he hwake

theorem rest_eq (h : l.shutDown = false) (now : Nat) : (l.rest now).1 = { l with
    state := .disconnected, backoff := l.backoff.next.2
    phase := .resting (now + l.backoff.current) } := by
  simp only [rest, publish_eq, h]
  rfl

theorem paces_dialed (a : Seal.Aead) (now : Nat) (h : l.shutDown = false) (success : Bool) :
    Paces a now l (.dialed success) (l.dialed now success).1.phase
      (l.dialed now success).1.backoff := by
  cases hphase : l.phase with
  | dialing =>
    simp only [dialed, hphase]
    cases success with
    | true =>
      obtain ⟨s, hs⟩ := absorb_eq (Serving.start l.options now).2
        { l with backoff := l.backoff.reset, phase := .serving (Serving.start l.options now).1 }
      rw [if_pos rfl, hs]
      exact .makes ⟨hphase, rfl⟩
    | false =>
      rw [if_neg Bool.false_ne_true, rest_eq h]
      exact .ends .failed (by simp only [endWith?, hphase])
  | _ =>
    simp only [dialed, hphase]
    rw [← hphase]
    exact paces_stays (by simp only [endWith?, hphase]) (by simp) (by simp)

theorem paces_serve (a : Seal.Aead) (now : Nat) (h : l.shutDown = false) (y : ServingEvent) :
    Paces a now l (.serving y) (l.serve a now y).1.phase (l.serve a now y).1.backoff := by
  cases hphase : l.phase with
  | serving s =>
    obtain ⟨state, hstate⟩ := absorb_eq (s.step l.options a now y).2
      { l with phase := .serving (s.step l.options a now y).1 }
    simp only [serve, hphase, hstate]
    split
    · rename_i hfinished
      dsimp only
      rw [rest_eq]
      · exact .ends .served (by simp only [endWith?, hphase, if_pos hfinished])
      · exact h
    · rename_i hopen
      exact .goesOn s _ hphase (by simp only [endWith?, hphase, if_neg hopen])
  | _ =>
    simp only [serve, hphase]
    rw [← hphase]
    exact paces_stays (by simp only [endWith?, hphase]) (by simp) (by simp)

theorem paces (a : Seal.Aead) (now : Nat) (h : l.shutDown = false) (he : e ≠ .shutDown) :
    Paces a now l e (l.step a now e).1.phase (l.step a now e).1.backoff := by
  cases e with
  | go =>
    cases hphase : l.phase with
    | ready =>
      simp only [step, go, hphase, h, publish_eq]
      exact .connects hphase rfl
    | _ =>
      simp only [step, go, hphase]
      rw [← hphase]
      exact .stays (by simp only [endWith?, hphase]) (by simp [hphase]) (by simp)
  | dialed success => exact paces_dialed a now h success
  | serving y => exact paces_serve a now h y
  | past c n de =>
    have hstays : Paces a now l (.past c n de) l.phase l.backoff :=
      paces_stays (by simp [endWith?]) (by simp) (by simp)
    rw [step, servePast]
    split
    · exact hstays
    · rename_i s hs
      obtain ⟨state, hstate⟩ := absorb_eq (s.dial now n de).2
        { l with past := l.past.set c (s.dial now n de).1 }
      rw [hstate]
      exact hstays
  | wake =>
    cases hphase : l.phase with
    | resting till =>
      simp only [step, wake, hphase]
      split
      · rename_i hdue
        exact .wakes till hphase hdue rfl
      · rename_i hearly
        refine .stays (by simp only [endWith?, hphase]) (by simp) fun t ht _ => ?_
        cases hphase.symm.trans ht
        exact Nat.lt_of_not_le hearly
    | _ =>
      simp only [step, wake, hphase]
      rw [← hphase]
      exact .stays (by simp only [endWith?, hphase]) (by simp) (by simp [hphase])
  | shutDown => exact absurd rfl he

theorem phase_of_end {x : End} (h : l.endWith? a (now, e) = some x) :
    (x = .failed ∧ l.phase = .dialing) ∨ x = .served ∧ ∃ s, l.phase = .serving s := by
  unfold endWith? at h
  split at h
  · rename_i hdialing _
    exact .inl ⟨(Option.some.inj h).symm, hdialing⟩
  · rename_i s y hserving _
    split at h
    · exact .inr ⟨(Option.some.inj h).symm, s, hserving⟩
    · cases h
  · cases h

/-- A client dials, or serves a connection. -/
def Busy (p : Phase) : Prop := p = .dialing ∨ ∃ s, p = .serving s

namespace Paces

variable {phase : Phase} {backoff : Backoff}

theorem of_end (h : Paces a now l e phase backoff) {x : End}
    (hend : l.endWith? a (now, e) = some x) : phase = .resting (now + l.backoff.current) := by
  cases h with
  | ends => rfl
  | makes h => simp only [endWith?, h.1, h.2, reduceCtorEq] at hend
  | goesOn _ _ _ hnone | stays hnone => cases hnone.symm.trans hend
  | wakes _ hresting => simp only [endWith?, hresting, reduceCtorEq] at hend
  | connects hready => simp only [endWith?, hready, reduceCtorEq] at hend

theorem of_resting (h : Paces a now l e phase backoff) {till : Nat} (hl : l.phase = .resting till) :
    phase = .resting till ∨ till ≤ now ∧ phase = .ready := by
  cases h with
  | ends _ hend => simp only [endWith?, hl, reduceCtorEq] at hend
  | makes h => cases hl.symm.trans h.1
  | goesOn _ _ hserving => cases hl.symm.trans hserving
  | wakes _ hresting hdue =>
    cases hl.symm.trans hresting
    exact .inr ⟨hdue, rfl⟩
  | connects hready => cases hl.symm.trans hready
  | stays => exact .inl hl

theorem of_ready (h : Paces a now l e phase backoff) (hl : l.phase = .ready) :
    phase = .ready ∧ e ≠ .go ∨ phase = .dialing ∧ e = .go := by
  cases h with
  | ends _ hend => simp only [endWith?, hl, reduceCtorEq] at hend
  | makes h => cases hl.symm.trans h.1
  | goesOn _ _ hserving => cases hl.symm.trans hserving
  | wakes _ hresting => cases hl.symm.trans hresting
  | connects _ hgo => exact .inr ⟨rfl, hgo⟩
  | stays _ hother => exact .inl ⟨hl, hother hl⟩

/-- What is done with the backoff at a step is what belongs to an attempt that ends with it. -/
theorem done (h : Paces a now l e phase backoff) {b : Backoff} {xs : List Operation}
    (hl : l.backoff = b.after (xs ++ underway l.phase)) :
    backoff = b.after (xs ++ (l.endWith? a (now, e)).toList.flatMap End.operations ++
      underway phase) := by
  cases h with
  | ends x hend =>
    rw [hend, Option.toList_some, List.flatMap_singleton, hl]
    obtain ⟨rfl, hdialing⟩ | ⟨rfl, s, hserving⟩ := phase_of_end hend
    · simp only [hdialing, underway, List.append_nil, End.operations, Backoff.after_concat]
      rfl
    · -- the backoff was reset when the connection was made
      simp only [hserving, underway, List.append_nil, End.operations]
      have hboth := b.after_concat (xs ++ [.reset]) .next
      rw [List.append_assoc] at hboth
      exact hboth.symm
  | makes h =>
    have hnone : l.endWith? a (now, e) = none := by simp only [endWith?, h.1, h.2]
    simp only [hnone, hl, h.1, underway, Option.toList_none, List.flatMap_nil, List.append_nil,
      Backoff.after_concat]
    rfl
  | goesOn s s' hserving hnone =>
    rw [hnone, hl, hserving, Option.toList_none, List.flatMap_nil, List.append_nil]
    rfl
  | wakes till hresting =>
    have hnone : l.endWith? a (now, e) = none := by simp only [endWith?, hresting]
    rw [hnone, hl, hresting, Option.toList_none, List.flatMap_nil, List.append_nil]
    rfl
  | connects hready =>
    have hnone : l.endWith? a (now, e) = none := by simp only [endWith?, hready]
    rw [hnone, hl, hready, Option.toList_none, List.flatMap_nil, List.append_nil]
    rfl
  | stays hnone => rw [hnone, hl, Option.toList_none, List.flatMap_nil, List.append_nil]

theorem of_busy (h : Paces a now l e phase backoff) (hl : Busy l.phase) :
    Busy phase ∨ ∃ x, l.endWith? a (now, e) = some x := by
  cases h with
  | ends x hend => exact .inr ⟨x, hend⟩
  | makes | goesOn => exact .inl (.inr ⟨_, rfl⟩)
  | wakes _ hresting => simp [Busy, hresting] at hl
  | connects => exact .inl (.inl rfl)
  | stays => exact .inl hl

end Paces

/-! ## From one attempt to the next -/

section Courses

variable {course : Course (stepAt a) (start o)}

theorem shutDown_eq_false (hrun : ∀ n, (course.happens n).2 ≠ .shutDown) (n : Nat) :
    (course.state n).shutDown = false := by
  induction n with
  | zero => rfl
  | succ n ih =>
    have hevent := hrun n
    have hturns := turns_at course n
    generalize (course.happens n).2 = e at hevent hturns
    generalize (course.state (n + 1)).phase = phase at hturns
    generalize (course.state (n + 1)).shutDown = shut at hturns ⊢
    cases hturns with
    | told | toldResting => exact absurd rfl hevent
    | _ => exact ih

theorem paces_at (hrun : ∀ n, (course.happens n).2 ≠ .shutDown) (n : Nat) :
    Paces a (course.happens n).1 (course.state n) (course.happens n).2
      (course.state (n + 1)).phase (course.state (n + 1)).backoff :=
  paces a _ (shutDown_eq_false hrun n) (hrun n)

/-- The backoff of a client is a fresh one with which this was done. -/
theorem backoff_eq (hrun : ∀ n, (course.happens n).2 ≠ .shutDown) (n : Nat) :
    (course.state n).backoff = (Backoff.new o.minReconnectDelay o.maxReconnectDelay).after
      ((ends course n).flatMap End.operations ++ underway (course.state n).phase) := by
  induction n with
  | zero => rfl
  | succ n ih =>
    rw [ends, List.flatMap_append]
    exact (paces_at hrun n).done ih

/-- After an end a client rests for the pause that its attempts so far come to. -/
theorem rests_after_end (hrun : ∀ n, (course.happens n).2 ≠ .shutDown) {n : Nat} {x : End}
    (hend : (course.state n).endWith? a (course.happens n) = some x) :
    (course.state (n + 1)).phase = .resting ((course.happens n).1 +
      pauseAfter o.minReconnectDelay (max o.minReconnectDelay o.maxReconnectDelay)
        (ends course (n + 1))) := by
  have hdelay : (course.state n).backoff.current =
      pauseAfter o.minReconnectDelay (max o.minReconnectDelay o.maxReconnectDelay)
        (ends course (n + 1)) := by
    rw [backoff_eq hrun, Backoff.after_eq, Backoff.delayAfter, pauseAfter, ends, hend,
      Option.toList_some, failures_concat]
    obtain ⟨rfl, hdialing⟩ | ⟨rfl, s, hserving⟩ := phase_of_end hend
    · simp only [hdialing, underway, List.append_nil, takenSinceReset_operations, List.mem_append,
        List.mem_singleton, reduceCtorEq, or_false]
      congr 3
      split <;> omega
    · simp [hserving, underway, Backoff.takenSinceReset_snoc]
  rw [(paces_at hrun n).of_end hend, hdelay]

/-! ## Dialing -/

theorem dial_not_mem_publish (l : Loop) (s : State) (addr : String) :
    .dial addr ∉ (l.publish s).2 := by
  unfold publish
  split <;> simp

theorem dial_not_mem_absorb (addr : String) (fx : List ServingEffect) :
    ∀ l : Loop, .dial addr ∉ (l.absorb fx).2 := by
  induction fx with
  | nil => exact fun _ => List.not_mem_nil
  | cons x rest ih =>
    intro l h
    cases x with
    | publish s =>
      obtain h | h := List.mem_append.mp h
      · exact dial_not_mem_publish l s addr h
      · exact ih _ h
    | link _ | dial _ _ =>
      obtain h | h := List.mem_cons.mp h
      · cases h
      · exact ih _ h

theorem dial_not_mem_rest (l : Loop) (now : Nat) (addr : String) : .dial addr ∉ (l.rest now).2 :=
  dial_not_mem_publish l .disconnected addr

theorem dials_iff (a : Seal.Aead) (now : Nat) (l : Loop) (e : LoopEvent) :
    (∃ addr, .dial addr ∈ (l.step a now e).2) ↔
      l.phase = .ready ∧ e = .go ∧ l.shutDown = false := by
  cases e with
  | go =>
    rw [step, go]
    split
    · rename_i hready
      split
      · rename_i hshut
        simp [hshut, dial_not_mem_publish]
      · rename_i hshut
        simp [hready, hshut]
    · rename_i hother
      constructor
      · rintro ⟨addr, h⟩
        cases h
      · rintro ⟨hready, -⟩
        exact absurd hready hother
  | dialed success =>
    constructor
    · rintro ⟨addr, h⟩
      rw [step, dialed] at h
      split at h
      · split at h
        · exact absurd h (dial_not_mem_absorb addr _ _)
        · exact absurd h (dial_not_mem_rest l now addr)
      · cases h
    · simp
  | serving y =>
    constructor
    · rintro ⟨addr, h⟩
      rw [step, serve] at h
      split at h
      · dsimp only at h
        split at h
        · obtain h | h := List.mem_append.mp h
          · exact absurd h (dial_not_mem_absorb addr _ _)
          · exact absurd h (dial_not_mem_rest _ now addr)
        · exact absurd h (dial_not_mem_absorb addr _ _)
      · cases h
    · simp
  | past c n de =>
    constructor
    · rintro ⟨addr, h⟩
      rw [step, servePast] at h
      split at h
      · cases h
      · exact absurd h (dial_not_mem_absorb addr _ _)
    · simp
  | wake | shutDown => simp [step]

/-- A client dials at a moment. -/
def DialsAt (course : Course (stepAt a) (start o)) (n : Nat) : Prop :=
  ∃ addr, .dial addr ∈ course.effectsAt n

/-- An attempt of a client to connect ends at a moment. -/
def EndsAt (course : Course (stepAt a) (start o)) (n : Nat) : Prop :=
  ∃ x, (course.state n).endWith? a (course.happens n) = some x

theorem dialsAt_iff (hrun : ∀ n, (course.happens n).2 ≠ .shutDown) (n : Nat) :
    DialsAt course n ↔ (course.state n).phase = .ready ∧ (course.happens n).2 = .go :=
  (dials_iff a _ _ _).trans
    ⟨fun h => ⟨h.1, h.2.1⟩, fun h => ⟨h.1, h.2, shutDown_eq_false hrun n⟩⟩

theorem phase_of_dialsAt (hrun : ∀ n, (course.happens n).2 ≠ .shutDown) {n : Nat}
    (h : DialsAt course n) : (course.state (n + 1)).phase = .dialing := by
  obtain ⟨hready, hgo⟩ := (dialsAt_iff hrun n).mp h
  obtain ⟨-, hother⟩ | ⟨hdialing, -⟩ := (paces_at hrun n).of_ready hready
  · exact absurd hgo hother
  · exact hdialing

/-! ## While a client rests -/

/-- Time does not run backwards. -/
def Forward (course : Course (stepAt a) (start o)) : Prop :=
  ∀ n, (course.happens n).1 ≤ (course.happens (n + 1)).1

theorem Forward.le (h : Forward course) {i j : Nat} (hij : i ≤ j) :
    (course.happens i).1 ≤ (course.happens j).1 := by
  induction hij with
  | refl => exact Nat.le_refl _
  | step _ ih => exact Nat.le_trans ih (h _)

theorem woken_between (hrun : ∀ n, (course.happens n).2 ≠ .shutDown) {n k till : Nat} (hnk : n ≤ k)
    (hn : (course.state n).phase = .resting till) (hk : (course.state k).phase ≠ .resting till) :
    ∃ w, n ≤ w ∧ w < k ∧ (∀ j, n ≤ j → j ≤ w → (course.state j).phase = .resting till) ∧
      till ≤ (course.happens w).1 ∧ (course.state (w + 1)).phase = .ready := by
  obtain ⟨w, hnw, hwk, hbefore, hleft⟩ := Course.first_between
    (P := fun j => (course.state j).phase ≠ .resting till) hnk (not_not.mpr hn) hk
  have hrests (j : Nat) (hnj : n ≤ j) (hjw : j ≤ w) : (course.state j).phase = .resting till :=
    not_not.mp (hbefore j hnj hjw)
  obtain hresting | hwoken := (paces_at hrun w).of_resting (hrests w hnw (Nat.le_refl w))
  · exact absurd hresting hleft
  · exact ⟨w, hnw, hwk, hrests, hwoken⟩

theorem connects_between (hrun : ∀ n, (course.happens n).2 ≠ .shutDown) {n k : Nat} (hnk : n ≤ k)
    (hn : (course.state n).phase = .ready) (hk : (course.state k).phase ≠ .ready) :
    ∃ g, n ≤ g ∧ g < k ∧ (∀ j, n ≤ j → j ≤ g → (course.state j).phase = .ready) ∧
      (course.happens g).2 = .go := by
  obtain ⟨g, hng, hgk, hbefore, hleft⟩ := Course.first_between
    (P := fun j => (course.state j).phase ≠ .ready) hnk (not_not.mpr hn) hk
  have hwaits (j : Nat) (hnj : n ≤ j) (hjg : j ≤ g) : (course.state j).phase = .ready :=
    not_not.mp (hbefore j hnj hjg)
  obtain ⟨hready, -⟩ | ⟨-, hgo⟩ := (paces_at hrun g).of_ready (hwaits g hng (Nat.le_refl g))
  · exact absurd hready hleft
  · exact ⟨g, hng, hgk, hwaits, hgo⟩

theorem le_of_dialsAt (hrun : ∀ n, (course.happens n).2 ≠ .shutDown) (hforward : Forward course)
    {n k till : Nat} (hnk : n ≤ k) (hn : (course.state n).phase = .resting till)
    (hk : DialsAt course k) : till ≤ (course.happens k).1 := by
  have hready := ((dialsAt_iff hrun k).mp hk).1
  obtain ⟨w, -, hwk, -, hdue, -⟩ := woken_between hrun hnk hn (by rw [hready]; nofun)
  exact Nat.le_trans hdue (hforward.le (Nat.le_of_lt hwk))

/-- Between two times that a client dials its attempt ends. -/
theorem ends_between (hrun : ∀ n, (course.happens n).2 ≠ .shutDown) {i k : Nat} (hik : i < k)
    (hi : DialsAt course i) (hk : DialsAt course k) : ∃ n, i < n ∧ n < k ∧ EndsAt course n := by
  have hready := ((dialsAt_iff hrun k).mp hk).1
  obtain ⟨n, hin, hnk, hbusy, hidle⟩ := Course.begins_between
    (P := fun j => ¬Busy (course.state j).phase) hik
    (not_not.mpr (.inl (phase_of_dialsAt hrun hi))) (by simp [Busy, hready])
  exact ⟨n, hin, hnk, ((paces_at hrun n).of_busy (not_not.mp hbusy)).resolve_left hidle⟩

/-- The timer of a client is not late, and a client that it wakes connects at once. -/
structure Prompt (course : Course (stepAt a) (start o)) : Prop where
  forward : Forward course
  wakes : ∀ n till, (course.state n).phase = .resting till →
    ∃ k, n ≤ k ∧ course.happens k = (till, .wake)
  goes : ∀ n till, (course.state n).phase = .resting till → (course.state (n + 1)).phase = .ready →
    ∃ k, n < k ∧ course.happens k = ((course.happens n).1, .go)

/-- What an event ends is over right after it, or before. -/
theorem over_by {P : Nat → Prop} {n d : Nat} (hnd : n ≤ d) (hd : P d → ¬P (d + 1)) :
    ∃ k, n ≤ k ∧ k ≤ d + 1 ∧ ¬P k := by
  by_cases h : P d
  · exact ⟨d + 1, Nat.le_succ_of_le hnd, Nat.le_refl _, hd h⟩
  · exact ⟨d, hnd, Nat.le_succ d, h⟩

theorem dials_on_time (hrun : ∀ n, (course.happens n).2 ≠ .shutDown) (h : Prompt course)
    {n till : Nat} (hn : (course.state n).phase = .resting till) :
    ∃ k, n < k ∧ DialsAt course k ∧ (course.happens k).1 = till ∧
      ∀ j, n ≤ j → j < k → ¬DialsAt course j := by
  obtain ⟨d, hnd, hd⟩ := h.wakes n till hn
  obtain ⟨k, hnk, hkd, hk⟩ := over_by (P := fun j => (course.state j).phase = .resting till) hnd
    fun hresting => by simp [Course.state_succ hd, stepAt, step, wake, hresting]
  obtain ⟨w, hnw, hwk, hrests, hdue, hready⟩ := woken_between hrun hnk hn hk
  have hw : (course.happens w).1 = till := by
    refine Nat.le_antisymm ?_ hdue
    simpa [hd] using h.forward.le (show w ≤ d by omega)
  obtain ⟨c, hwc, hc⟩ := h.goes w till (hrests w hnw (Nat.le_refl w)) hready
  have hopen := shutDown_eq_false hrun c
  obtain ⟨k', hwk', hkc, hk'⟩ := over_by (P := fun j => (course.state j).phase = .ready) hwc
    fun hready => by simp [Course.state_succ hc, stepAt, step, go, hready, hopen]
  obtain ⟨g, hwg, hgk, hwaits, hgo⟩ := connects_between hrun hwk' hready hk'
  have hg : (course.happens g).1 = till := by
    refine Nat.le_antisymm ?_ (hw ▸ h.forward.le (Nat.le_of_succ_le hwg))
    simpa [hc, hw] using h.forward.le (show g ≤ c by omega)
  have hdials : DialsAt course g :=
    (dialsAt_iff hrun g).mpr ⟨hwaits g hwg (Nat.le_refl g), hgo⟩
  refine ⟨g, by omega, hdials, hg, fun j hnj hjg hj => ?_⟩
  obtain ⟨hready', -⟩ := (dialsAt_iff hrun j).mp hj
  rcases Nat.lt_or_ge w j with hwj | hjw
  · -- it would have connected at that moment, and was ready still afterwards
    cases (phase_of_dialsAt hrun hj).symm.trans (hwaits (j + 1) (by omega) hjg)
  · cases (hrests j hnj hjw).symm.trans hready'

end Courses

/-! ## The schedule -/

/-- A client that is not shut down rests whenever an attempt to connect has failed or a connection
that it served is finished, and how long depends on how its attempts ended so far: for the least
delay after a connection, for twice as long with every attempt that failed since, and after
attempts that failed from the start for half of that, up to the greatest delay. Between two
attempts there is always such a rest, and no attempt before it is over; if the timer is not late,
the next one comes right then. And at most one of its connections is not finished. -/
theorem reconnects_on_schedule (hgiven : given.normalize? = .ok o)
    (course : Course (stepAt a) (start o)) (hrun : ∀ n, (course.happens n).2 ≠ .shutDown) :
    let least := if given.minReconnectDelay = 0 then 1000 else given.minReconnectDelay
    let greatest := max least given.maxReconnectDelay
    let pause := pauseAfter least greatest
    let till n := (course.happens n).1 + pause (ends course (n + 1))
    (0 < least ∧ (∀ es, least ≤ pause es) ∧
      (∀ es, pause (es ++ [.served]) = least) ∧
      (∀ es j, pause (es ++ .served :: List.replicate j .failed) = min (least * 2 ^ j) greatest) ∧
      ∀ j, pause (List.replicate j .failed) = min (least * 2 ^ (j - 1)) greatest) ∧
    (∀ n x, (course.state n).endWith? a (course.happens n) = some x →
      ends course (n + 1) = ends course n ++ [x] ∧
        (course.state (n + 1)).phase = .resting (till n)) ∧
    (Forward course → ∀ k, DialsAt course k →
      (∀ n < k, EndsAt course n → till n ≤ (course.happens k).1) ∧
        ∀ i < k, DialsAt course i → ∃ n, i < n ∧ n < k ∧ EndsAt course n) ∧
    (Prompt course → ∀ n, EndsAt course n → ∃ k, n < k ∧ DialsAt course k ∧
      (course.happens k).1 = till n ∧ ∀ j, n < j → j < k → ¬DialsAt course j) ∧
    ∀ (n j k : Nat) (s s' : Serving), (course.state n).servings[j]? = some s →
      (course.state n).servings[k]? = some s' → s.link.stage ≠ .finished →
      s'.link.stage ≠ .finished → j = k := by
  intro least greatest pause till
  obtain ⟨hmin, hmax⟩ := delays_of_normalize? hgiven
  have hpositive : 0 < least := by
    show 0 < if _ then _ else _
    split <;> omega
  have hle : least ≤ greatest := Nat.le_max_left _ _
  have hrests (n : Nat) (x : End) (hx : (course.state n).endWith? a (course.happens n) = some x) :
      (course.state (n + 1)).phase = .resting (till n) := by
    rw [rests_after_end hrun hx, hmin, hmax]
  refine ⟨⟨hpositive, le_pauseAfter hle, pauseAfter_served hle, pauseAfter_failedSince _ _,
    pauseAfter_failed _ _⟩, fun n x hx => ⟨?_, hrests n x hx⟩, fun hforward k hk => ⟨?_, ?_⟩,
    fun hprompt n hn => ?_, ?_⟩
  · rw [ends, hx, Option.toList_some]
  · rintro n hnk ⟨x, hx⟩
    exact le_of_dialsAt hrun hforward hnk (hrests n x hx) hk
  · exact fun i hik hi => ends_between hrun hik hi hk
  · obtain ⟨x, hx⟩ := hn
    obtain ⟨k, hnk, hk, htime, hnone⟩ := dials_on_time hrun hprompt (hrests n x hx)
    exact ⟨k, by omega, hk, htime, hnone⟩
  · intro n j k s s' hj hk hs hs'
    have hfirst := (number_of_unfinished course n hj hs).1
    have hsecond := (number_of_unfinished course n hk hs').1
    exact hfirst.trans hsecond.symm

/-- Options of a client with no least delay. -/
def impatientOptions : Options where
  serverAddr := " tunnel:1"
  authToken := "token"
  minReconnectDelay := 0
  maxReconnectDelay := 3000
  heartbeatDelay := 10
  dialTimeout := 5
  proxy := none

/-- The options that are in force then. -/
def patientOptions : Options :=
  { impatientOptions with serverAddr := "tunnel:1", minReconnectDelay := 1000 }

/-- A client fails to connect twice, is connected for a while, and fails to connect twice again. -/
def connectedInBetween : Course (stepAt Seal.aes256Gcm) (start patientOptions) :=
  .of [(0, .go), (0, .dialed false), (1000, .wake), (1000, .go), (1000, .dialed false),
    (3000, .wake), (3000, .go), (3000, .dialed true), (3500, .serving (.link .failWriting)),
    (3500, .serving (.link .noticeClose)), (3500, .serving (.link (.beginFlush 3500))),
    (3500, .serving (.link .finish)), (4500, .wake), (4500, .go), (4500, .dialed false),
    (6500, .wake), (6500, .go), (6500, .dialed false), (9500, .wake), (9500, .go)] (9500, .go)

theorem happens_connectedInBetween {n : Nat} (hn : 20 ≤ n) :
    connectedInBetween.happens n = (9500, .go) := Course.happens_of_le rfl hn

theorem runs_connectedInBetween (n : Nat) : (connectedInBetween.happens n).2 ≠ .shutDown := by
  have hfirst : ∀ n < 20, (connectedInBetween.happens n).2 ≠ .shutDown := by decide +kernel
  rcases Nat.lt_or_ge n 20 with hn | hn
  · exact hfirst n hn
  · rw [happens_connectedInBetween hn]
    exact nofun

/-- In the end it dials for good. -/
theorem dialing_connectedInBetween (d : Nat) :
    (connectedInBetween.state (20 + d)).phase = .dialing := by
  induction d with
  | zero => decide +kernel
  | succ d ih =>
    rw [← Nat.add_assoc, Course.state_succ (happens_connectedInBetween (Nat.le_add_right 20 d)),
      stepAt, step, go]
    simp only [ih]

/-- When a client that rests is to be woken. -/
def till? : Phase → Option Nat
  | .resting till => some till
  | _ => none

theorem prompt_connectedInBetween : Prompt connectedInBetween := by
  have hresting (n till : Nat) (h : (connectedInBetween.state n).phase = .resting till) :
      n < 20 ∧ till ∈ (till? (connectedInBetween.state n).phase).toList := by
    refine ⟨?_, by simp [h, till?]⟩
    apply Nat.lt_of_not_le
    intro hle
    obtain ⟨d, rfl⟩ := Nat.exists_eq_add_of_le hle
    cases h.symm.trans (dialing_connectedInBetween d)
  constructor
  · intro n
    have hfirst : ∀ n < 20,
        (connectedInBetween.happens n).1 ≤ (connectedInBetween.happens (n + 1)).1 := by
      decide +kernel
    rcases Nat.lt_or_ge n 20 with hn | hn
    · exact hfirst n hn
    · rw [happens_connectedInBetween hn, happens_connectedInBetween (Nat.le_succ_of_le hn)]
  · intro n till h
    have hfirst : ∀ n < 20, ∀ till ∈ (till? (connectedInBetween.state n).phase).toList,
        ∃ k < 20, n ≤ k ∧ connectedInBetween.happens k = (till, .wake) := by decide +kernel
    obtain ⟨hn, htill⟩ := hresting n till h
    obtain ⟨k, -, hk⟩ := hfirst n hn till htill
    exact ⟨k, hk⟩
  · intro n till h hready
    have hfirst : ∀ n < 20, (connectedInBetween.state (n + 1)).phase = .ready → ∃ k < 20,
        n < k ∧ connectedInBetween.happens k = ((connectedInBetween.happens n).1, .go) := by
      decide +kernel
    obtain ⟨k, -, hk⟩ := hfirst n (hresting n till h).1 hready
    exact ⟨k, hk⟩

/-- It rests for 1 s and 2 s, for 1 s after it was connected, and then for 2 s and 3 s. -/
theorem reconnects_on_schedule_connectedInBetween :
    ends connectedInBetween 20 = [.failed, .failed, .served, .failed, .failed] ∧
    (∀ p ∈ [(1, 1000), (4, 3000), (11, 4500), (14, 6500), (17, 9500)],
      (connectedInBetween.state (p.1 + 1)).phase = .resting p.2 ∧
      ∃ k, p.1 < k ∧ DialsAt connectedInBetween k ∧ (connectedInBetween.happens k).1 = p.2 ∧
        ∀ j, p.1 < j → j < k → ¬DialsAt connectedInBetween j) ∧
    (∃ n, 6 < n ∧ n < 13 ∧ EndsAt connectedInBetween n ∧ 4500 ≤ (connectedInBetween.happens 13).1) ∧
    ∀ k s, (connectedInBetween.state 9).servings[k]? = some s → s.link.stage ≠ .finished →
      0 = k := by
  obtain ⟨-, hrests, hforward, hprompt, hone⟩ := reconnects_on_schedule
    (show impatientOptions.normalize? = .ok patientOptions from rfl) connectedInBetween
    runs_connectedInBetween
  have hends : ∀ p ∈ [(1, 1000), (4, 3000), (11, 4500), (14, 6500), (17, 9500)],
      ∃ x ∈ [End.failed, .served], endWith? Seal.aes256Gcm (connectedInBetween.state p.1)
          (connectedInBetween.happens p.1) = some x ∧
        (connectedInBetween.happens p.1).1 +
          pauseAfter 1000 3000 (ends connectedInBetween (p.1 + 1)) = p.2 := by decide +kernel
  have hdials : DialsAt connectedInBetween 6 ∧ DialsAt connectedInBetween 13 :=
    ⟨⟨"tunnel:1", by decide +kernel⟩, "tunnel:1", by decide +kernel⟩
  have hserved : ∃ s ∈ (connectedInBetween.state 9).servings[0]?, s.link.stage ≠ .finished := by
    decide +kernel
  refine ⟨by decide +kernel, fun p hp => ?_, ?_, fun k s hs hopen => ?_⟩
  · obtain ⟨x, -, hx, htill⟩ := hends p hp
    rw [← htill]
    exact ⟨(hrests _ x hx).2, hprompt prompt_connectedInBetween _ ⟨x, hx⟩⟩
  · obtain ⟨hover, hbetween⟩ := hforward prompt_connectedInBetween.forward 13 hdials.2
    obtain ⟨x, -, hx, htill⟩ := hends (11, 4500) (by decide)
    obtain ⟨n, hin, hnk, hn⟩ := hbetween 6 (by decide) hdials.1
    exact ⟨n, hin, hnk, hn, Nat.le_trans (Nat.le_of_eq htill.symm) (hover 11 (by decide) ⟨x, hx⟩)⟩
  · obtain ⟨s', hs', hopen'⟩ := hserved
    exact hone 9 0 k s' s hs' hs hopen' hopen

end ReverseTunnel.Client.Loop

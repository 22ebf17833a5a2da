import ReverseTunnel.Proofs.Client.Connections
import ReverseTunnel.Proofs.Client.Heartbeats
import ReverseTunnel.Seal.Gcm

/-!
The heartbeats of a client after it was refused.

What is proved (`heartbeats_after_refusal`): a client passes over a refusal (`passed_over`).
Whatever heartbeats were due go off all the same, and every acknowledgement calls for another
one, as if nothing had been said (`balance_since`). It is only if none is due and none is
acknowledged that a client which was refused sends no heartbeat until it is approved. With
`beats_on_after_refusal` there is a course in which one is.

What is assumed: only for a heartbeat to be sent in the end, that those which are due go off
(`Fires`) and that the link stays open.

What is not said: that the server here acknowledges a heartbeat after a refusal. It closes the
connection instead (`Server.Answer.dropsStray`).
-/

namespace ReverseTunnel.Client

open Control
open Wire (Message bytesOf)

variable {o : Options} {a : Seal.Aead} {now : Nat}

/-- A message that says that the client is not accepted. -/
def refuses : Message → Bool
  | .authAck success _ => !success
  | _ => false

/-- A message that answers a heartbeat. -/
def acknowledges : Message → Bool
  | .heartbeatAck _ _ => true
  | _ => false

theorem callsForBeat_eq (m : Message) : callsForBeat m = (approves m || acknowledges m) := by
  cases m with
  | authAck success message => cases success <;> rfl
  | _ => rfl

namespace Serving

variable {course : Course (stepAt o a) (start o now).1}

/-- A message of some kind is handled with the event of a moment. -/
def HandlesAt (course : Course (stepAt o a) (start o now).1) (kind : Message → Bool) (n : Nat) :
    Prop := ∃ m ∈ (course.state n).handledAt (course.happens n).2, kind m = true

instance (course : Course (stepAt o a) (start o now).1) (kind : Message → Bool) (n : Nat) :
    Decidable (HandlesAt course kind n) :=
  inferInstanceAs (Decidable (∃ m ∈ (course.state n).handledAt (course.happens n).2, kind m = true))

theorem callsAt_iff (n : Nat) :
    CallsAt course n ↔ HandlesAt course approves n ∨ HandlesAt course acknowledges n := by
  simp only [CallsAt, HandlesAt, callsForBeat_eq, Bool.or_eq_true, and_or_left, exists_or]

/-! ## The refusal itself -/

theorem passed_over {n : Nat} (h : HandlesAt course refuses n) :
    ∃ message rest, (course.state n).link.inbox = .authAck false message :: rest ∧
      course.state (n + 1) =
        { course.state n with link := { (course.state n).link with inbox := rest } } ∧
      course.effectsAt n = [] := by
  obtain ⟨m, hm, hrefuses⟩ := h
  rw [Course.state, Course.effectsAt, stepAt]
  generalize (course.happens n).2 = e at hm
  cases e with
  | handle nonce =>
    obtain ⟨taken, htaken, rfl⟩ := Option.map_eq_some_iff.mp (Option.mem_toList.mp hm)
    obtain ⟨m, l⟩ := taken
    obtain ⟨hinbox, hl⟩ := Link.take?_eq_some htaken
    have hm : ∃ message, m = .authAck false message := by
      cases m with
      | authAck success message =>
        cases success with
        | true => cases hrefuses
        | false => exact ⟨message, rfl⟩
      | _ => cases hrefuses
    obtain ⟨message, rfl⟩ := hm
    refine ⟨message, l.inbox, hinbox, ?_⟩
    have hstep : (course.state n).step o a (course.happens n).1 (.handle nonce) =
        ({ course.state n with link := l }, []) := by
      simp only [step, handle, htaken, Session.handle, performAll]
    rw [hstep, ← hl]
    exact ⟨rfl, rfl⟩
  | _ => cases hm

theorem not_callsAt_of_refuses {n : Nat} (h : HandlesAt course refuses n) : ¬CallsAt course n := by
  obtain ⟨m, hm, hrefuses⟩ := h
  rintro ⟨m', hm', hcalls⟩
  obtain hnone | ⟨x, hx⟩ := handledAt_cases (course.state n) (course.happens n).2
  · rw [hnone] at hm
    cases hm
  · rw [hx, List.mem_singleton] at hm hm'
    subst hm hm'
    cases m' with
    | authAck success message => cases success <;> simp [refuses, callsForBeat] at hrefuses hcalls
    | _ => cases hrefuses

/-! ## What is sent later -/

theorem beatsAt_iff (n : Nat) : BeatsAt course n ↔ (course.happens n).2 = .beat ∧
    (course.state n).link.closed = false ∧
    ∃ due ∈ (course.state n).beats, due ≤ (course.happens n).1 := by
  have hcount := countP_isBeat o a (course.happens n).1 (course.state n) (course.happens n).2
  have hsome : ((course.state n).beats.find? (· ≤ (course.happens n).1)).isSome ↔
      ∃ due ∈ (course.state n).beats, due ≤ (course.happens n).1 := by
    simp [List.find?_isSome]
  have hbeats : BeatsAt course n ↔ 0 < ((course.state n).emittedAt o a (course.happens n).1
      (course.happens n).2).countP isBeat := by
    rw [List.countP_pos_iff]
    constructor
    · rintro ⟨timestamp, hmem⟩
      exact ⟨_, hmem, rfl⟩
    · rintro ⟨m, hmem, hm⟩
      cases m <;> cases hm
      exact ⟨_, hmem⟩
  rw [hbeats, hcount, ← hsome]
  split
  · rename_i hall
    exact ⟨fun _ => hall, fun _ => Nat.one_pos⟩
  · rename_i hnot
    exact ⟨fun h => absurd h (Nat.lt_irrefl 0), fun h => absurd h hnot⟩

/-- Every heartbeat that is sent was due before, or was called for since. -/
theorem due_or_called_since {m n : Nat} (hmn : m < n) (hm : ¬CallsAt course m)
    (h : BeatsAt course n) :
    (course.state m).beats ≠ [] ∨ ∃ i, m < i ∧ i < n ∧ CallsAt course i := by
  obtain ⟨i, hi, -⟩ := caller_of_beats h
  obtain ⟨hin, hcalls⟩ := (callers_sorted course n).2 i hi
  rcases Nat.lt_trichotomy i m with him | rfl | hmi
  · left
    have hwaits : i ∈ callers course m :=
      not_not.mp fun hnot => not_caller_from course him (Nat.le_of_lt hmn) hnot hi
    rw [beats_eq]
    exact List.ne_nil_of_mem (List.mem_map_of_mem hwaits)
  · exact absurd hcalls hm
  · exact .inr ⟨i, hmi, hin, hcalls⟩

theorem emittedBefore_grows (course : Course (stepAt o a) (start o now).1) {m n : Nat}
    (hmn : m ≤ n) : emittedBefore course m <+: emittedBefore course n := by
  induction hmn with
  | refl => exact List.prefix_refl _
  | step _ ih => exact ih.trans (List.prefix_append _ _)

/-- As long as the link is not closed, what was due and what was called for since was sent since
or is still due. -/
theorem balance_since {m n : Nat} (hmn : m ≤ n) (h : (course.state n).link.closed = false) :
    ∃ handled emitted, handledBefore course n = handledBefore course m ++ handled ∧
      emittedBefore course n = emittedBefore course m ++ emitted ∧
      (course.state n).beats.length + emitted.countP isBeat =
        (course.state m).beats.length + handled.countP callsForBeat := by
  have hopen : (course.state m).link.closed = false := by
    rw [Bool.eq_false_iff]
    intro hclosed
    have hlater := course.from_then_on (P := fun s => s.link.closed = true)
      (fun s e hs => closed_step o a e.1 hs e.2) hmn hclosed
    cases h.symm.trans hlater
  obtain ⟨handled, hhandled⟩ := handledBefore_grows course hmn
  obtain ⟨emitted, hemitted⟩ := emittedBefore_grows course hmn
  refine ⟨handled, emitted, hhandled.symm, hemitted.symm, ?_⟩
  have hbefore := calls_balance course hopen
  have hafter := calls_balance course h
  rw [← hhandled, ← hemitted, List.countP_append, List.countP_append] at hafter
  omega

/-- Every heartbeat that is due goes off some time. -/
def Fires (course : Course (stepAt o a) (start o now).1) : Prop :=
  ∀ n, ∀ due ∈ (course.state n).beats,
    ∃ k, n ≤ k ∧ (course.happens k).2 = .beat ∧ due ≤ (course.happens k).1

theorem sent_of_due (hfires : Fires course) (hopen : ∀ n, (course.state n).link.closed = false)
    {n due : Nat} (hdue : due ∈ (course.state n).beats) : ∃ k, n ≤ k ∧ BeatsAt course k := by
  obtain ⟨k, hnk, hbeat, htime⟩ := hfires n due hdue
  by_cases hstill : due ∈ (course.state k).beats
  · exact ⟨k, hnk, (beatsAt_iff k).mpr ⟨hbeat, hopen k, due, hstill, htime⟩⟩
  · -- it went off before, or one that was due before it
    obtain ⟨j, hnj, -, hj, hgone⟩ := Course.begins_between
      (P := fun j => due ∉ (course.state j).beats) hnk (not_not.mpr hdue) hstill
    refine ⟨j, hnj, Classical.byContradiction fun hnot => hgone ?_⟩
    have hturn := (turn o a (course.happens j).1 (course.state j) (course.happens j).2).beats
    change (course.state (j + 1)).beats = _ at hturn
    rw [hturn]
    refine List.mem_append_left _ ?_
    split
    · rename_i hbeat
      have hnone : ∀ x ∈ (course.state j).beats, ¬x ≤ (course.happens j).1 := fun x hx hle =>
        hnot ((beatsAt_iff j).mpr ⟨hbeat, hopen j, x, hx, hle⟩)
      rw [List.eraseP_of_forall_not (by simpa using hnone)]
      exact not_not.mp hj
    · exact not_not.mp hj

theorem due_of_calls {n : Nat} (h : CallsAt course n) :
    ∃ due, due ∈ (course.state (n + 1)).beats := by
  have hturn := (turn o a (course.happens n).1 (course.state n) (course.happens n).2).beats
  change (course.state (n + 1)).beats = _ at hturn
  rw [hturn, if_pos (List.any_eq_true.mpr h)]
  exact ⟨_, List.mem_append_right _ (List.mem_singleton_self _)⟩

/-- A refusal leaves the heartbeats of a client as they are. One that is sent later was due when
the client was refused, or called for later by an approval or by an acknowledgement, and as long
as the link is not closed each of these is sent or still due. So a client that is not approved
later, on a link that stays open, sends a heartbeat after the refusal exactly if one was due then
or one is acknowledged later. -/
theorem heartbeats_after_refusal (course : Course (stepAt o a) (start o now).1) {m : Nat}
    (hrefused : HandlesAt course refuses m) :
    ((course.state (m + 1)).beats = (course.state m).beats ∧
      (course.state (m + 1)).session = (course.state m).session ∧ course.effectsAt m = []) ∧
    (∀ n, m < n → BeatsAt course n → (course.state m).beats ≠ [] ∨ ∃ i, m < i ∧ i < n ∧
      (HandlesAt course approves i ∨ HandlesAt course acknowledges i)) ∧
    (∀ n, m ≤ n → (course.state n).link.closed = false →
      ∃ handled emitted, handledBefore course n = handledBefore course m ++ handled ∧
        emittedBefore course n = emittedBefore course m ++ emitted ∧
        (course.state n).beats.length + emitted.countP isBeat =
          (course.state m).beats.length + handled.countP callsForBeat) ∧
    (Fires course → (∀ n, (course.state n).link.closed = false) →
      (∀ i, m < i → ¬HandlesAt course approves i) →
      ((∃ n, m < n ∧ BeatsAt course n) ↔
        (course.state m).beats ≠ [] ∨ ∃ i, m < i ∧ HandlesAt course acknowledges i)) := by
  obtain ⟨message, rest, -, hstate, hsilent⟩ := passed_over hrefused
  have hbeats : (course.state (m + 1)).beats = (course.state m).beats := by rw [hstate]
  have hsince (n : Nat) (hmn : m < n) (hn : BeatsAt course n) : (course.state m).beats ≠ [] ∨
      ∃ i, m < i ∧ i < n ∧ (HandlesAt course approves i ∨ HandlesAt course acknowledges i) := by
    simpa only [callsAt_iff] using due_or_called_since hmn (not_callsAt_of_refuses hrefused) hn
  refine ⟨⟨hbeats, by rw [hstate], hsilent⟩, hsince, fun n => balance_since,
    fun hfires hopen hnever => ⟨?_, ?_⟩⟩
  · rintro ⟨n, hmn, hn⟩
    obtain hdue | ⟨i, hmi, -, happroved | hacknowledged⟩ := hsince n hmn hn
    · exact .inl hdue
    · exact absurd happroved (hnever i hmi)
    · exact .inr ⟨i, hmi, hacknowledged⟩
  · rintro (hdue | ⟨i, hmi, hacknowledged⟩)
    · obtain ⟨due, hdue⟩ := List.exists_mem_of_ne_nil _ hdue
      obtain ⟨k, hmk, hk⟩ := sent_of_due hfires hopen (hbeats.symm ▸ hdue)
      exact ⟨k, hmk, hk⟩
    · obtain ⟨due, hdue⟩ := due_of_calls ((callsAt_iff i).mpr (.inr hacknowledged))
      obtain ⟨k, hik, hk⟩ := sent_of_due hfires hopen hdue
      exact ⟨k, Nat.lt_trans hmi hik, hk⟩

/-- Options of a client that is refused. -/
def refusedOptions : Options where
  serverAddr := "tunnel:1"
  authToken := "token"
  minReconnectDelay := 1
  maxReconnectDelay := 2
  heartbeatDelay := 10
  dialTimeout := 5
  proxy := none

/-- A client is approved and then refused on a connection. The heartbeat that was due goes off, and
is acknowledged, and so does the next one. -/
def approvedThenRefused :
    Course (stepAt refusedOptions Seal.aes256Gcm) (start refusedOptions 0).1 :=
  .of [(0, .link (.receive (bytesOf [.authAck true "", .authAck false "bad token"]))),
    (0, .link .read), (0, .link .read), (0, .handle []), (0, .handle []), (10, .beat),
    (10, .link .beginFrame), (10, .link (.transmit 100)), (10, .link .beginFrame),
    (10, .link (.transmit 100)), (11, .link (.receive (bytesOf [.heartbeatAck 10 11]))),
    (11, .link .read), (11, .handle []), (21, .beat), (21, .link .beginFrame),
    (21, .link (.transmit 100))] (21, Loop.idle)

theorem idle_approvedThenRefused {n : Nat} (hn : 16 ≤ n) :
    approvedThenRefused.happens n = (21, Loop.idle) ∧
      approvedThenRefused.state n = approvedThenRefused.state 16 :=
  ⟨Course.happens_of_le rfl hn,
    (Course.still_of_le (c := approvedThenRefused) rfl (fun s => Loop.step_idle _ _ 21 s) hn).1⟩

theorem not_approved_approvedThenRefused {n : Nat} (hn : 4 < n) :
    ¬HandlesAt approvedThenRefused approves n := by
  have hfirst : ∀ n < 16, 4 < n → ¬HandlesAt approvedThenRefused approves n := by decide +kernel
  rcases Nat.lt_or_ge n 16 with hlt | hge
  · exact hfirst n hlt hn
  · rintro ⟨m, hm, -⟩
    rw [(idle_approvedThenRefused hge).1] at hm
    cases hm

/-- After the refusal two heartbeats are sent, though no approval is handled. -/
theorem beats_on_after_refusal :
    HandlesAt approvedThenRefused refuses 4 ∧
    (∀ n, 4 < n → ¬HandlesAt approvedThenRefused approves n) ∧
    BeatsAt approvedThenRefused 5 ∧ BeatsAt approvedThenRefused 13 ∧
    sentBytes (approvedThenRefused.effects 16) =
      bytesOf [.auth "token", .heartbeat 10, .heartbeat 21] :=
  ⟨by decide +kernel, fun _ => not_approved_approvedThenRefused, ⟨10, by decide +kernel⟩,
    ⟨21, by decide +kernel⟩, by decide +kernel⟩

theorem fires_approvedThenRefused : Fires approvedThenRefused := by
  have hfirst : ∀ n < 16, ∀ due ∈ (approvedThenRefused.state n).beats, ∃ k < 16, n ≤ k ∧
      (approvedThenRefused.happens k).2 = .beat ∧ due ≤ (approvedThenRefused.happens k).1 := by
    decide +kernel
  intro n due hdue
  rcases Nat.lt_or_ge n 16 with hlt | hge
  · obtain ⟨k, -, hk⟩ := hfirst n hlt due hdue
    exact ⟨k, hk⟩
  · have hnone : (approvedThenRefused.state 16).beats = [] := by decide +kernel
    rw [(idle_approvedThenRefused hge).2, hnone] at hdue
    cases hdue

theorem open_approvedThenRefused (n : Nat) :
    (approvedThenRefused.state n).link.closed = false := by
  have hfirst : ∀ n ≤ 16, (approvedThenRefused.state n).link.closed = false := by decide +kernel
  rcases Nat.lt_or_ge n 16 with hlt | hge
  · exact hfirst n (Nat.le_of_lt hlt)
  · rw [(idle_approvedThenRefused hge).2]
    exact hfirst 16 (Nat.le_refl 16)

/-- A client is refused at once. -/
def refusedAtOnce : Course (stepAt refusedOptions Seal.aes256Gcm) (start refusedOptions 0).1 :=
  .of [(0, .link (.receive (bytesOf [.authAck false "bad token"]))), (0, .link .read),
    (0, .handle [])] (100, .beat)

/-- One heartbeat was due as the client was refused, and one was called for later, and both are
sent. If it is refused at once, none is. -/
theorem heartbeats_after_refusal_approvedThenRefused :
    (∃ n, 4 < n ∧ BeatsAt approvedThenRefused n) ∧
    (∃ handled emitted, handledBefore approvedThenRefused 16 =
        handledBefore approvedThenRefused 4 ++ handled ∧
      emittedBefore approvedThenRefused 16 = emittedBefore approvedThenRefused 4 ++ emitted ∧
      emitted.countP isBeat = 1 + handled.countP callsForBeat) ∧
    ∀ n, 2 < n → ¬BeatsAt refusedAtOnce n := by
  have hdue : (approvedThenRefused.state 4).beats = [10] := by decide +kernel
  have hnone : (approvedThenRefused.state 16).beats = [] := by decide +kernel
  obtain ⟨-, -, hbalance, hiff⟩ :=
    heartbeats_after_refusal approvedThenRefused (m := 4) (by decide +kernel)
  obtain ⟨-, hsince, -⟩ := heartbeats_after_refusal refusedAtOnce (m := 2) (by decide +kernel)
  refine ⟨?_, ?_, fun n hn hbeats => ?_⟩
  · exact (hiff fires_approvedThenRefused open_approvedThenRefused
      fun _ => not_approved_approvedThenRefused).mpr (.inl (by rw [hdue]; nofun))
  · obtain ⟨handled, emitted, hhandled, hemitted, hcount⟩ :=
      hbalance 16 (by decide) (open_approvedThenRefused 16)
    rw [hdue, hnone, List.length_nil, Nat.zero_add] at hcount
    exact ⟨handled, emitted, hhandled, hemitted, hcount⟩
  · obtain hdue | ⟨i, hi, -, hcalls⟩ := hsince n hn hbeats
    · exact hdue (by decide +kernel)
    · have hlast : refusedAtOnce.happens i = (100, .beat) := Course.happens_of_le rfl hi
      rw [HandlesAt, HandlesAt, hlast] at hcalls
      simp [handledAt] at hcalls

end Serving

end ReverseTunnel.Client

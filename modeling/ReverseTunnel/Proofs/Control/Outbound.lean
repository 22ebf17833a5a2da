import Mathlib.Data.List.TakeWhile
import ReverseTunnel.Proofs.Control.Service
import ReverseTunnel.Proofs.Control.Writing

/-!
What is emitted on a link goes out without a gap.

What is proved (`goes_out_without_gap`):
1. `Outgoing` ties what was emitted to what was put on the transport: the messages that were
   accepted come before those that were refused, and the frames that were begun are those of
   the first of them. So whatever else happens, what is on the transport is a beginning of what
   was emitted, and stops in front of the first message that is too long for a frame.
2. A link that is closed tells the far end that nothing more comes when all that was accepted is
   on the transport, unless the writer's time is up before (`Carrier.CutOff`). After that nothing
   is put there.
3. The exception takes nothing but a far end that reads slowly (`slow_reader_misses_the_rest`):
   it is told then as if it had been given everything.

What is assumed: only for the second, that the transport does not fail, that the far end keeps
reading (`Carrier.Keeping`), and that all that was accepted fits into frames.

What is not said: how fast the far end has to read. The limit is on the writer's time, and it
counts from the moment at which everything read was handled.
-/

namespace ReverseTunnel.Control

open Wire (Message Frame bytesOf)

namespace Service

variable {s s' : Service} {e : ServiceEvent} {fx : List ServiceEffect}

theorem emits_append (fx fx' : List ServiceEffect) : emits (fx ++ fx') = emits fx ++ emits fx' :=
  List.filterMap_append

theorem accepted_append (fx fx' : List ServiceEffect) :
    accepted (fx ++ fx') = accepted fx ++ accepted fx' := List.filterMap_append

theorem sent_append (fx fx' : List ServiceEffect) : sent (fx ++ fx') = sent fx ++ sent fx' := by
  rw [sent, onWire, List.filterMap_append, Link.sentBytes_append]
  rfl

/-- What was emitted, what of it was accepted, and what was put on the transport. -/
structure Outgoing (s : Service) (ms : List (Message × Bool)) (accepted : List Message)
    (wire : Bytes) : Prop where
  sound : s.link.Sound
  shut : s.link.writerStopped = true → s.link.closed = true
  writes : ∃ begun, s.link.Writes begun accepted wire
  /-- What was refused was emitted after what was accepted, and closed the link. -/
  verdicts : ∃ refused : List Message, ms = accepted.map (·, true) ++ refused.map (·, false) ∧
    (s.link.closed = false → refused = [])

variable {ms : List (Message × Bool)} {taken : List Message} {wire : Bytes}

theorem outgoing_start : ({} : Service).Outgoing [] [] [] :=
  ⟨Link.sound_start, nofun, ⟨[], Link.writes_start⟩, [], rfl, fun _ => rfl⟩

theorem Outgoing.emitted (h : s.Outgoing ms taken wire) (m : Message) :
    ({ s with link := s.link.emitted m } : Service).Outgoing (ms ++ [(m, s.link.accepts)])
      (if s.link.accepts then taken ++ [m] else taken) wire := by
  obtain ⟨begun, hwrites⟩ := h.writes
  obtain ⟨refused, hverdicts, hnone⟩ := h.verdicts
  have ha := Link.aside_emitted s.link m
  have hshut : (s.link.emitted m).writerStopped = true → (s.link.emitted m).closed = true := by
    rw [Link.writerStopped_emitted]
    exact fun hw => ha.closed (h.shut hw)
  cases haccepts : s.link.accepts with
  | true =>
    have hopen := Link.open_of_accepts haccepts
    rw [if_pos rfl]
    refine ⟨h.sound.aside ha, hshut, ?_, [], ?_, fun _ => rfl⟩
    · rcases hwrites.emitted m with ⟨-, -, hwrites'⟩ | ⟨hclosed, -⟩
      · exact ⟨begun, hwrites'⟩
      · rw [Link.emitted_of_accepts haccepts] at hclosed
        cases hopen.symm.trans hclosed
    · rw [hverdicts, hnone hopen]
      simp
  | false =>
    rw [if_neg Bool.false_ne_true]
    refine ⟨h.sound.aside ha, hshut, ?_, refused ++ [m], ?_, ?_⟩
    · rw [Link.emitted_of_refuses haccepts]
      exact ⟨begun, hwrites.fits, hwrites.order, hwrites.onWire, hwrites.going⟩
    · rw [hverdicts, List.map_append, List.append_assoc]
      rfl
    · rw [Link.emitted_of_refuses haccepts]
      nofun

theorem Outgoing.move (h : s.Outgoing ms taken wire) (hm : Move s e s' fx) :
    s'.Outgoing (ms ++ emits fx) (taken ++ accepted fx) (wire ++ sent fx) := by
  obtain ⟨begun, hwrites⟩ := h.writes
  obtain ⟨refused, hverdicts, hnone⟩ := h.verdicts
  have hsound := sound_move h.sound hm
  cases hm with
  | rests => simpa [emits, accepted, sent, onWire, Link.sentBytes] using h
  | links le l ls hm =>
    rw [emits_links, accepted_links, List.append_nil, List.append_nil, sent, onWire_links]
    refine ⟨hsound, Link.shut_move h.sound h.shut hm, hwrites.move hm, refused, hverdicts, ?_⟩
    intro hopen
    apply hnone
    cases hclosed : s.link.closed with
    | false => rfl
    | true => rw [← hopen, Link.closed_move hclosed hm]
  | emits m ls hcounts =>
    obtain ⟨counts, rfl⟩ := hcounts
    have hnext := h.emitted m
    simp only [emits_emitted, emits_links, accepted_emitted, accepted_links, sent, onWire_emitted,
      onWire_links, Link.sentBytes_counts, List.append_nil]
    cases haccepts : s.link.accepts with
    | true => simpa [haccepts] using hnext
    | false => simpa [haccepts] using hnext
  | hands m l _ _ htake =>
    obtain ⟨-, hl⟩ := Link.take?_eq_some htake
    rw [hl] at hsound ⊢
    simp only [emits, accepted, sent, onWire, List.filterMap_cons, List.filterMap_nil,
      Link.sentBytes, List.append_nil]
    exact ⟨hsound, h.shut, ⟨begun, hwrites.fits, hwrites.order, hwrites.onWire, hwrites.going⟩,
      h.verdicts⟩
  | connects | parts | returns =>
    simp only [emits, accepted, sent, onWire, List.filterMap_cons, List.filterMap_nil,
      Link.sentBytes, List.append_nil]
    exact ⟨h.sound, h.shut, h.writes, h.verdicts⟩

variable (c : Course step {})

theorem outgoing (n : Nat) : (c.state n).Outgoing (emits (c.effects n)) (accepted (c.effects n))
    (sent (c.effects n)) := by
  induction n with
  | zero => exact outgoing_start
  | succ n ih =>
    rw [Course.effects, emits_append, accepted_append, sent_append]
    exact ih.move (move (c.state n) (c.happens n))

/-- What is on the transport is a beginning of what was emitted, up to the first message
that is too long for a frame. -/
theorem Outgoing.isPrefix (h : s.Outgoing ms taken wire) :
    wire <+: bytesOf ((ms.map Prod.fst).takeWhile fun m => Frame.Fits m.body) := by
  obtain ⟨begun, hwrites⟩ := h.writes
  obtain ⟨refused, hverdicts, -⟩ := h.verdicts
  obtain ⟨waiting, hwaiting⟩ := hwrites.order
  have hall : ms.map Prod.fst = begun ++ (waiting ++ refused) := by
    rw [hverdicts, ← hwaiting]
    simp [Function.comp_def]
  have hfits : ∀ m ∈ begun, decide (Frame.Fits m.body) = true := by
    simpa using hwrites.fits
  rw [hall, List.takeWhile_append_of_pos hfits, Wire.bytesOf_append]
  exact hwrites.onWire.trans (List.prefix_append _ _)

theorem accepted_of_closed (hclosed : s.link.closed = true) (hm : Move s e s' fx) :
    accepted fx = [] := by
  cases hm with
  | links => exact accepted_links _
  | emits m ls =>
    have hrefuses : s.link.accepts = false := by simp [Link.accepts, hclosed]
    simp [hrefuses]
  | _ => rfl

/-- What was accepted by the time at which the link is closed is all that is. -/
theorem accepted_eq {m n : Nat} (hmn : m ≤ n) (hclosed : (c.state m).link.closed = true) :
    accepted (c.effects n) = accepted (c.effects m) := by
  induction hmn with
  | refl => rfl
  | @step n hle ih =>
    have hclosed' := c.from_then_on (fun s e h => closed_move h (move s e)) hle hclosed
    rw [Course.effects, accepted_append, Course.effectsAt,
      accepted_of_closed hclosed' (move (c.state n) (c.happens n)), List.append_nil, ih]

/-! ## All of it goes out -/

/-- How a service keeps its link. -/
def carrier : Carrier Service ServiceEvent ServiceEffect where
  link? s := some s.link
  event := .link
  event_inj h := by
    cases h
    rfl
  effect := .link
  onLink?
    | .link e => some e
    | _ => none
  onLink?_eq_some {x y} := by cases x <;> simp

/-- Apart from the link's own steps, nothing that happens is anything to the writer of a closed
link. -/
theorem onClosed_of_else (helse : ∀ y, e ≠ .link y) (hclosed : s.link.closed = true)
    (hm : Move s e s' fx) : carrier.OnClosed s.link e s'.link fx := by
  cases hm with
  | links y => exact absurd rfl (helse y)
  | emits m ls hcounts =>
    obtain ⟨counts, rfl⟩ := hcounts
    exact .rests _ _ _ (fun y _ => helse y) (Link.writesAlike_emitted hclosed m) (by simp [carrier])
  | hands m l _ _ htake =>
    exact .rests _ _ _ (fun y _ => helse y) (Link.writesAlike_take? htake) (by simp [carrier])
  | rests | connects | parts | returns =>
    exact .rests _ _ _ (fun y _ => helse y) (.refl _) (by simp [carrier])

theorem onClosed_step (hclosed : s.link.closed = true) (e : ServiceEvent) :
    carrier.OnClosed s.link e (s.step e).1.link (s.step e).2 := by
  cases e with
  | link y =>
    rw [step, onLink]
    split
    · -- a flush waits for the handler, and no writer awaits one
      rename_i hheld
      refine .rests _ _ _ (fun z hexpects hz => ?_) (.refl _) nofun
      cases hz
      cases hexpects <;> cases hheld
    · exact .steps y
  | emit | call | back => exact onClosed_of_else nofun hclosed (move s _)

theorem stopped_of_sentEnd (hm : Move s e s' fx) (hend : .link .sentEnd ∈ fx) :
    s'.link.writerStopped = true := by
  cases hm with
  | links le l ls hm => exact Link.stopped_of_sentEnd hm (by simpa using hend)
  | emits m ls hcounts =>
    obtain ⟨counts, rfl⟩ := hcounts
    simp at hend
  | _ => simp at hend

theorem carries (c : Course step {}) : carrier.Carries c where
  closed n l hl hclosed := by
    cases hl
    exact ⟨_, rfl, closed_move hclosed (move _ _), onClosed_step hclosed _⟩
  ends n hend :=
    have hw := stopped_of_sentEnd (move (c.state n) (c.happens n)) hend
    ⟨_, rfl, (outgoing c (n + 1)).shut hw, hw⟩

/-- A writer that stops on an open link has come to a message that is too long for a frame, or
the transport has failed. -/
theorem open_stops (hsound : s.link.Sound) (hopen : s.link.closed = false)
    (hw : s.link.writerStopped = false) (hm : Move s e s' fx) (hw' : s'.link.writerStopped = true) :
    (∃ m ∈ s.link.outbox, ¬Frame.Fits m.body) ∨ e = .link .failWriting := by
  cases hm with
  | links y l ls hm =>
    rcases Link.stops_move hw hm hw' with ⟨-, hclosed, -⟩ | hlong | rfl | ⟨since, now, hstage, -⟩
    · cases hopen.symm.trans hclosed
    · obtain ⟨m, hm, error, herror⟩ := hlong
      refine .inl ⟨m, hm, fun hfits => ?_⟩
      rw [Frame.append_eq_ok.mpr ⟨hfits, rfl⟩] at herror
      cases herror
    · exact .inr rfl
    · cases hopen.symm.trans (hsound.shut (hsound.drained (by simp [hstage])).1)
  | emits m => cases hw.symm.trans ((Link.writerStopped_emitted s.link m).symm.trans hw')
  | hands m l _ _ htake =>
    obtain ⟨-, hl⟩ := Link.take?_eq_some htake
    rw [hl] at hw'
    cases hw.symm.trans hw'
  | _ => cases hw.symm.trans hw'

section

variable {c}

theorem delivers (hc : carrier.Keeping c)
    (hfits : ∀ n, ∀ m ∈ accepted (c.effects n), Frame.Fits m.body) {n : Nat}
    (hclosed : (c.state n).link.closed = true) :
    ∃ k, (∀ j, j < k → .link .sentEnd ∉ c.effectsAt j) ∧
      (∀ j, k ≤ j → sent (c.effects j) = sent (c.effects k)) ∧
      (carrier.CutOff c k ∨
        c.effectsAt k = [.link .sentEnd] ∧ sent (c.effects k) = bytesOf (accepted (c.effects n))) := by
  -- the step with which the link is closed
  obtain ⟨m, hm, hbefore⟩ := Course.exists_first
    (P := fun k => (c.state k).link.closed = true) Bool.false_ne_true hclosed
  have hopen : (c.state m).link.closed = false := by simpa using hbefore m (Nat.le_refl m)
  have hwriting : (c.state m).link.writerStopped = false := by
    rw [Bool.eq_false_iff]
    exact fun hw => hbefore m (Nat.le_refl m) ((outgoing c m).shut hw)
  have hgoing : ¬carrier.Stopped (c.state (m + 1)) := by
    rintro ⟨l, hl, -, hw⟩
    cases hl
    rcases open_stops (outgoing c m).sound hopen hwriting (move _ _) hw with ⟨k, hk, hlong⟩ | hfails
    · -- a message that waits was accepted, and fits
      obtain ⟨begun, hwrites⟩ := (outgoing c m).writes
      exact hlong (hfits m k ((hwrites.going hwriting).2 ▸ List.mem_append_right begun hk))
    · exact hc.sound m hfails
  obtain ⟨begun, hwrites⟩ := (outgoing c (m + 1)).writes
  obtain ⟨k, -, hends, hlast, hstops⟩ :=
    hc.delivers (carries c) ⟨_, begun, rfl, hm, hwrites⟩ hgoing
  refine ⟨k, hends, hlast, hstops.imp_right fun ⟨hsent, hend⟩ => ⟨hend (hfits (m + 1)), ?_⟩⟩
  have hmn : m + 1 ≤ n := Nat.lt_of_not_le fun hnm => hbefore n hnm hclosed
  have hall := List.takeWhile_eq_self_iff.mpr (show ∀ k ∈ accepted (c.effects (m + 1)),
    decide (Frame.Fits k.body) = true by simpa using hfits (m + 1))
  rw [accepted_eq c hmn hm, ← hall]
  exact hsent

end

/-! ## The whole course -/

/-- Of what is emitted on a link, first messages are accepted and then, from the first one
on that is not, none. What is on the transport at any moment is a beginning of what was
emitted, up to the first message that is too long for a frame. And if the transport does
not fail, the far end keeps reading and every message that is accepted fits into a frame,
then all that was accepted by the time at which the link is closed is put on the
transport, after that the far end is told that nothing more comes, and nothing more does;
unless the writer's time is up before, and what it has not written by then is dropped. -/
theorem goes_out_without_gap (c : Course step {}) :
    (∀ n, ∃ refused : List Message, emits (c.effects n) =
      (accepted (c.effects n)).map (·, true) ++ refused.map (·, false)) ∧
    (∀ n, sent (c.effects n) <+:
      bytesOf (((emits (c.effects n)).map Prod.fst).takeWhile fun m => Frame.Fits m.body)) ∧
    (carrier.Keeping c → (∀ n, ∀ m ∈ accepted (c.effects n), Frame.Fits m.body) →
      ∀ n, (c.state n).link.closed = true →
        ∃ k, (∀ j, j < k → .link .sentEnd ∉ c.effectsAt j) ∧
          (∀ j, k ≤ j → sent (c.effects j) = sent (c.effects k)) ∧
          (carrier.CutOff c k ∨ c.effectsAt k = [.link .sentEnd] ∧
            sent (c.effects k) = bytesOf (accepted (c.effects n)))) := by
  refine ⟨fun n => ?_, fun n => (outgoing c n).isPrefix, fun hc hfits n => delivers hc hfits⟩
  obtain ⟨refused, hverdicts, -⟩ := (outgoing c n).verdicts
  exact ⟨refused, hverdicts⟩

/-- Two messages are emitted, the link is closed, and a third one is refused; everything read is
handled, and the writer, whose time is not up yet, gets on. -/
def thirdTooLate : Course step {} :=
  .thenInTurn [.emit (.heartbeat 7), .emit (.openDataConn 1), .link .close, .emit (.heartbeat 8),
    .link .noticeClose, .call, .back, .link (.beginFlush 0), .link .beginFrame,
    .link (.giveUp 4999)] 3 carrier.writerTurn

theorem accepted_thirdTooLate (n : Nat) :
    accepted (thirdTooLate.effects n) <+: [.heartbeat 7, .openDataConn 1] := by
  match n with
  | 0 | 1 | 2 => decide
  | n + 3 =>
    rw [accepted_eq thirdTooLate (show 3 ≤ n + 3 by omega) (by decide)]
    decide

theorem goes_out_without_gap_thirdTooLate :
    carrier.Keeping thirdTooLate ∧
      (∀ n, ∀ m ∈ accepted (thirdTooLate.effects n), Frame.Fits m.body) ∧
      (thirdTooLate.state 9).link.closed = true ∧
      (thirdTooLate.state 9).link.stage = .flushing 0 ∧
      ∃ k, thirdTooLate.effectsAt k = [.link .sentEnd] ∧
        sent (thirdTooLate.effects k) = bytesOf [.heartbeat 7, .openDataConn 1] := by
  have hkeeping : carrier.Keeping thirdTooLate := Carrier.keeping_thenInTurn rfl (by simp [carrier])
  have hfits : ∀ n, ∀ m ∈ accepted (thirdTooLate.effects n), Frame.Fits m.body := by
    intro n m hm
    have hall : ∀ m ∈ [Message.heartbeat 7, .openDataConn 1], Frame.Fits m.body := by decide
    exact hall m ((accepted_thirdTooLate n).subset hm)
  have hclosed : (thirdTooLate.state 9).link.closed = true := by decide
  obtain ⟨k, -, -, hcut | ⟨hend, hall⟩⟩ :=
    (goes_out_without_gap thirdTooLate).2.2 hkeeping hfits 9 hclosed
  · exact absurd hcut (Carrier.not_cutOff_thenInTurn rfl (by simp [carrier, flushLimit]))
  · exact ⟨hkeeping, hfits, hclosed, by decide, k, hend, hall⟩

/-- The far end takes a byte a second: of the message that was accepted before the link was
closed, four bytes have gone out when the writer's time is up. -/
def slowReader : Course step {} :=
  .thenInTurn [.emit (.heartbeat 7), .link .close, .link .noticeClose, .call, .back,
    .link (.beginFlush 0), .link .beginFrame, .link (.transmit 1), .link (.transmit 1),
    .link (.transmit 1), .link (.transmit 1), .link (.giveUp 5000), .link .finish] 3
    carrier.writerTurn

theorem accepted_slowReader (n : Nat) : accepted (slowReader.effects n) <+: [.heartbeat 7] := by
  match n with
  | 0 | 1 => decide
  | n + 2 =>
    rw [accepted_eq slowReader (show 2 ≤ n + 2 by omega) (by decide)]
    decide

/-- A far end that keeps reading, but slowly, never gets the rest, and is told nevertheless that
nothing more comes. -/
theorem slow_reader_misses_the_rest :
    carrier.Keeping slowReader ∧
      (∀ n, ∀ m ∈ accepted (slowReader.effects n), Frame.Fits m.body) ∧
      (slowReader.state 2).link.closed = true ∧
      accepted (slowReader.effects 2) = [.heartbeat 7] ∧
      slowReader.effectsAt 12 = [.link .sentEnd] ∧
      (∀ k, (sent (slowReader.effects k)).length ≤ 4) ∧
      ∀ k, sent (slowReader.effects k) ≠ bytesOf (accepted (slowReader.effects 2)) := by
  have hfits : ∀ n, ∀ m ∈ accepted (slowReader.effects n), Frame.Fits m.body := by
    intro n m hm
    rw [List.mem_singleton.mp ((accepted_slowReader n).subset hm)]
    decide
  have hfew : ∀ k, (sent (slowReader.effects k)).length ≤ 4 := by
    intro k
    rcases Nat.lt_or_ge k 12 with hk | hk
    · have hfirst : ∀ k < 12, (sent (slowReader.effects k)).length ≤ 4 := by decide
      exact hfirst k hk
    · -- the writer has stopped by then
      have hstopped : carrier.Stopped (slowReader.state 12) := ⟨_, rfl, by decide, by decide⟩
      have hsame : sent (slowReader.effects k) = sent (slowReader.effects 12) :=
        ((carries slowReader).stopped_from hk hstopped).2
      rw [hsame]
      decide
  refine ⟨Carrier.keeping_thenInTurn rfl (by simp [carrier]), hfits, by decide, by decide, by decide,
    hfew, fun k hk => ?_⟩
  have hlong : 4 < (bytesOf (accepted (slowReader.effects 2))).length := by decide
  have hk' := hfew k
  rw [hk] at hk'
  omega

end Service

end ReverseTunnel.Control

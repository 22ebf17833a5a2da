import ReverseTunnel.Proofs.Control.Link
import ReverseTunnel.Proofs.Wire.Fragments

/-!
What a link carries in both directions.

What was handled and what waits to be handled are, in order, the messages that arrived so
far, as far as they were read (`Link.Reads`), and all of them once the reader has stopped
by itself (`Link.ReadOut`). What was put on the transport is a beginning
of the frames of the messages that were accepted, in the order in which they were
(`Link.Writes`).
-/

namespace ReverseTunnel.Control

open Wire (Message Frame Carries bytesOf draw messagesIn messages_drawn)

namespace Link

variable {l l' : Link} {e : LinkEvent} {fx : List LinkEffect} {m : Message} {heard sent : Bytes}
  {handled begun accepted : List Message}

/-! ## The reader -/

/-- What was handled and what waits was read from what arrived, and nothing is skipped. -/
def Reads (l : Link) (heard : Bytes) (handled : List Message) : Prop :=
  Carries heard (handled ++ l.inbox) l.unread

theorem reads_start : ({} : Link).Reads [] [] := .nil []

theorem Reads.move (h : l.Reads heard handled) (hm : Move l e l' fx) :
    l'.Reads (heard ++ l.heardAt e) handled := by
  cases hm with
  | rests _ hquiet | stops _ _ _ hquiet =>
    rw [hquiet, List.append_nil]
    exact h
  | receives bs hopen =>
    have hbs : l.heardAt (.receive bs) = bs := if_neg (by simp [hopen])
    rw [hbs]
    exact h.append bs
  | reads frame rest m _ hdecode hbody =>
    simp only [heardAt, List.append_nil]
    have hnext := h.snoc hdecode hbody
    rw [List.append_assoc] at hnext
    exact hnext
  | _ =>
    simp only [heardAt, List.append_nil]
    exact h

/-- A message that was written is read, if there is room for it. -/
theorem read_bytes (hread : l.readEnd = none) (hfits : Frame.Fits m.body) {rest : Bytes}
    (hunread : l.unread = m.frame.bytes ++ rest) (hroom : l.inbox.length < inboxLimit) :
    l.read.1 = { l with unread := rest, inbox := l.inbox ++ [m] } := by
  have hbody : Message.ofBody m.frame.kind m.frame.body = .ok m := Message.ofBody_of_fits hfits
  unfold read
  rw [hread, hunread, Frame.decode_bytes hfits rest]
  simp only [Option.isSome_none, Bool.false_eq_true, if_false, hbody, if_pos hroom]

theorem Reads.take? (h : l.Reads heard handled) (ht : l.take? = some (m, l')) :
    l'.Reads heard (handled ++ [m]) := by
  obtain ⟨hinbox, hl'⟩ := take?_eq_some ht
  have hunread : l'.unread = l.unread := by rw [hl']
  rw [Reads, hinbox] at h
  rw [Reads, hunread, List.append_assoc, List.singleton_append]
  exact h

theorem Reads.aside (h : l.Reads heard handled) (ha : l.Aside l') : l'.Reads heard handled := by
  rw [Reads, ha.inbox, ha.unread]
  exact h

/-! ## The end of what is read -/

/-- What arrives later does not make readable what was not. -/
theorem Exhausted.move (h : l.Exhausted) (hm : Move l e l' fx) : l'.Exhausted := by
  cases hm with
  | receives bs hopen =>
    simp only [Exhausted] at h ⊢
    split at h
    · rename_i error hdecode
      simp only [Frame.decode_append_of_error hdecode bs]
    · simp [hopen] at h
    · rename_i frame rest hdecode
      simp only [Frame.decode_append hdecode bs]
      exact h
  | ends =>
    simp only [Exhausted] at h ⊢
    split at h <;> simp_all
  | reads frame rest m _ hdecode hbody =>
    -- a message that could be read
    simp only [Exhausted, hdecode] at h
    obtain ⟨error, herror⟩ := h
    simp [hbody] at herror
  | _ => exact h

theorem Exhausted.messagesIn_unread (h : l.Exhausted) : messagesIn l.unread = [] := by
  simp only [Exhausted] at h
  split at h
  · rename_i error hdecode
    rw [messagesIn, Wire.draw_of_error hdecode]
    rfl
  · rename_i hdecode
    rw [messagesIn, Wire.draw_of_none hdecode]
    rfl
  · rename_i frame rest hdecode
    obtain ⟨error, herror⟩ := h
    rw [messagesIn, Wire.draw_of_some hdecode]
    simp only [Wire.readable, herror]

/-- A reader that was not told to stop has read everything. -/
def ReadOut (l : Link) : Prop := ∀ why, l.readEnd = some why → why ≠ .told → l.Exhausted

theorem readOut_start : ({} : Link).ReadOut := fun _ h => by cases h

theorem ReadOut.move (h : l.ReadOut) (hm : Move l e l' fx) : l'.ReadOut := by
  intro why hend hwhy
  have hmoved := hm
  cases hm with
  | stops e why' counts hquiet hr hexhausted =>
    cases hend
    exact (hexhausted hwhy).move hmoved
  | _ => exact (h why hend hwhy).move hmoved

theorem ReadOut.aside (h : l.ReadOut) (ha : l.Aside l') : l'.ReadOut := by
  intro why hend hwhy
  have hexhausted := h why (ha.readEnd ▸ hend) hwhy
  simp only [Exhausted, ha.unread, ha.remoteEnded]
  exact hexhausted

theorem ReadOut.take? (h : l.ReadOut) (ht : l.take? = some (m, l')) : l'.ReadOut := by
  obtain ⟨-, hl'⟩ := take?_eq_some ht
  rw [hl']
  exact h

/-- Once nothing more can be read, what was handled and what waits is all there is. -/
theorem Reads.all (h : l.Reads heard handled) (he : l.Exhausted) :
    handled ++ l.inbox = messagesIn heard := by
  rw [Carries.messagesIn_eq h, he.messagesIn_unread, List.append_nil]

/-! ## The writer -/

/-- The bytes that effects put on the transport. -/
def sentBytes : List LinkEffect → Bytes
  | [] => []
  | .sent bs :: rest => bs ++ sentBytes rest
  | .sentEnd :: rest => sentBytes rest
  | .count _ :: rest => sentBytes rest

/-- The frames that were begun are those of the first messages that were accepted, and
nothing else was put on the transport. While the writer goes on, what is left of the
frame that is being written and the outbox are all that is missing. -/
structure Writes (l : Link) (begun accepted : List Message) (sent : Bytes) : Prop where
  fits : ∀ m ∈ begun, Frame.Fits m.body
  order : begun <+: accepted
  onWire : sent <+: bytesOf begun
  going : l.writerStopped = false → sent ++ l.sending = bytesOf begun ∧ begun ++ l.outbox = accepted

theorem writes_start : ({} : Link).Writes [] [] [] :=
  ⟨fun _ hm => absurd hm List.not_mem_nil, List.nil_prefix, List.nil_prefix, fun _ => ⟨rfl, rfl⟩⟩

theorem sentBytes_append (ls ls' : List LinkEffect) :
    sentBytes (ls ++ ls') = sentBytes ls ++ sentBytes ls' := by
  induction ls with
  | nil => rfl
  | cons l ls ih =>
    cases l with
    | sent bs => simp only [List.cons_append, sentBytes, ih, List.append_assoc]
    | _ => exact ih

theorem sentBytes_of_quiet {ls : List LinkEffect} (h : ∀ bs, .sent bs ∉ ls) : sentBytes ls = [] := by
  induction ls with
  | nil => rfl
  | cons e ls ih =>
    have hrest := ih fun bs hbs => h bs (List.mem_cons_of_mem e hbs)
    cases e with
    | sent bs => exact absurd List.mem_cons_self (h bs)
    | _ => exact hrest

theorem sentBytes_counts (counts : List Count) : sentBytes (counts.map .count) = [] :=
  sentBytes_of_quiet (by simp)

theorem Writes.stopped (h : l.Writes begun accepted sent) (hw : l'.writerStopped = true) :
    l'.Writes begun accepted sent :=
  ⟨h.fits, h.order, h.onWire, fun hgoing => by simp [hw] at hgoing⟩

theorem Writes.move (h : l.Writes begun accepted sent) (hm : Move l e l' fx) :
    ∃ begun', l'.Writes begun' accepted (sent ++ sentBytes fx) := by
  cases hm with
  | begins m rest bs hw hsending houtbox hfits =>
    -- the next message goes from the outbox to what is begun
    obtain ⟨hfit, hbs⟩ := Frame.append_eq_ok.mp hfits
    obtain ⟨hwritten, hall⟩ := h.going hw
    rw [hsending, List.append_nil] at hwritten
    rw [houtbox, ← List.singleton_append, ← List.append_assoc] at hall
    rw [sentBytes, List.append_nil]
    refine ⟨begun ++ [m], fun k hk => ?_, hall ▸ List.prefix_append _ _, ?_, fun _ => ⟨?_, hall⟩⟩
    · rcases List.mem_append.mp hk with hk | hk
      · exact h.fits k hk
      · rw [List.mem_singleton.mp hk]
        exact hfit
    · rw [Wire.bytesOf_snoc]
      exact h.onWire.trans (List.prefix_append _ _)
    · rw [Wire.bytesOf_snoc, ← hwritten, hbs, List.nil_append]
      rfl
  | transmits n hw =>
    obtain ⟨hwritten, hall⟩ := h.going hw
    -- bytes go from what is being sent to what is on the wire
    have hsplit : (sent ++ l.sending.take n) ++ l.sending.drop n = bytesOf begun := by
      rw [List.append_assoc, List.take_append_drop, hwritten]
    rw [sentBytes, sentBytes, List.append_nil]
    exact ⟨begun, h.fits, h.order, hsplit ▸ List.prefix_append _ _, fun _ => ⟨hsplit, hall⟩⟩
  | stops _ why counts =>
    rw [sentBytes_counts, List.append_nil]
    exact ⟨begun, h.fits, h.order, h.onWire, h.going⟩
  | rests | receives | ends | reads | closes | flushes | finishes =>
    simp only [sentBytes, List.append_nil]
    exact ⟨begun, h.fits, h.order, h.onWire, h.going⟩
  | jams | fails | endsWriting | givesUp =>
    simp only [sentBytes, List.append_nil]
    exact ⟨begun, h.stopped rfl⟩

theorem Writes.emitted (h : l.Writes begun accepted sent) (m : Message) :
    (l.closed = false ∧ (l.emitted m).closed = false ∧
        (l.emitted m).Writes begun (accepted ++ [m]) sent) ∨
      ((l.emitted m).closed = true ∧ (l.emitted m).Writes begun accepted sent) := by
  rcases emitted_cases l m with ⟨hopen, hm⟩ | hm
  · left
    rw [hm]
    refine ⟨hopen, hopen, h.fits, h.order.trans (List.prefix_append _ _), h.onWire, ?_⟩
    intro hw
    obtain ⟨hwritten, hall⟩ := h.going hw
    refine ⟨hwritten, ?_⟩
    rw [← hall, List.append_assoc]
  · right
    rw [hm]
    exact ⟨rfl, h.fits, h.order, h.onWire, h.going⟩

theorem beginFrame_of_sending (h : l.sending ≠ []) : l.beginFrame = l := by
  unfold beginFrame
  rw [if_pos (by simp [h])]

/-- A writer that stops while the transport is sound puts nothing on it in that step. Either its
time is up, or what was accepted is on the transport, up to the first message that is too long
for a frame, and the far end is told that nothing more comes if there is none. -/
theorem Writes.stops (h : l.Writes begun accepted sent) (hgoing : l.writerStopped = false)
    (hstops : (l.step e).1.writerStopped = true) (hsound : e ≠ .failWriting) :
    sentBytes (l.step e).2 = [] ∧
      ((∃ since now, l.stage = .flushing since ∧ since + flushLimit ≤ now ∧ e = .giveUp now) ∨
        sent = bytesOf (accepted.takeWhile fun m => Frame.Fits m.body) ∧
        ((∀ m ∈ accepted, Frame.Fits m.body) → (l.step e).2 = [.sentEnd])) := by
  obtain ⟨hwritten, hall⟩ := h.going hgoing
  have hbegun : ∀ m ∈ begun, decide (Frame.Fits m.body) = true := by simpa using h.fits
  have hm := Link.move l e
  generalize hstep : l.step e = x at hstops hm ⊢
  obtain ⟨l', fx⟩ := x
  cases hm with
  | endsWriting _ _ houtbox hsending =>
    rw [hsending, List.append_nil] at hwritten
    rw [houtbox] at hall
    subst hall
    refine ⟨rfl, .inr ⟨?_, fun _ => rfl⟩⟩
    rw [List.takeWhile_append_of_pos hbegun, List.takeWhile_nil, List.append_nil, hwritten]
  | jams m rest error _ houtbox htoo =>
    have hsending : l.sending = [] := by
      apply Decidable.byContradiction
      intro hsending
      have hsame : l = _ := (beginFrame_of_sending hsending).symm.trans (congrArg Prod.fst hstep)
      rw [hsame] at hgoing
      cases hgoing
    have hlong : ¬ Frame.Fits m.body := by
      intro hfits
      rw [Frame.append_eq_ok.mpr ⟨hfits, rfl⟩] at htoo
      cases htoo
    rw [hsending, List.append_nil] at hwritten
    rw [houtbox] at hall
    subst hall
    refine ⟨rfl, .inr ⟨?_, fun hfits => absurd (hfits m (by simp)) hlong⟩⟩
    rw [List.takeWhile_append_of_pos hbegun, List.takeWhile_cons_of_neg (by simpa using hlong),
      List.append_nil, hwritten]
  | fails => exact absurd rfl hsound
  | givesUp now since hstage hlate => exact ⟨rfl, .inl ⟨since, now, hstage, hlate, rfl⟩⟩
  | finishes _ _ hw => cases hgoing.symm.trans hw
  | _ => cases hgoing.symm.trans hstops

/-- What was put on the transport are complete frames of the first messages accepted,
then at most an incomplete one. -/
theorem Writes.drawn (h : l.Writes begun accepted sent) :
    (∃ spoken, spoken <+: accepted ∧ (draw sent).frames = spoken.map Message.frame) ∧
      (draw sent).failure = none := by
  obtain ⟨⟨spoken, hspoken, hframes⟩, hfailure⟩ := messages_drawn h.fits h.onWire
  exact ⟨⟨spoken, hspoken.trans h.order, hframes⟩, hfailure⟩

end Link

end ReverseTunnel.Control

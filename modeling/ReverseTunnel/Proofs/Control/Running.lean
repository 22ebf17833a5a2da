import ReverseTunnel.Proofs.Control.Dispatch
import ReverseTunnel.Proofs.Control.Outbound

/-!
What a service has come to after finitely many events.

`Shows` says that a course of a service comes to a state, and what its handler was called
for, what was emitted, what had arrived and what was put on the transport by then. There
is a lemma for each thing that can be done with a link, so that whoever does nothing else
with one can be shown to serve it as a service does. Between two calls of the handler, all
that is shown is a matter of the link (`Serves`).
-/

namespace ReverseTunnel.Control.Service

open Wire (Message Frame bytesOf messagesIn)

/-- A course comes to this state, with what was done and what had arrived by then. -/
def Shows (s : Service) (handled emitted : List Message) (bs wire : Bytes) : Prop :=
  ∃ (c : Course step {}) (n : Nat), c.state n = s ∧
    begun (c.effects n) = Attendance.calls handled s.attendance ∧
    (emits (c.effects n)).map Prod.fst = emitted ∧ heard c n = bs ∧ sent (c.effects n) = wire

variable {s : Service} {l l' : Link} {m : Message} {handled handled' emitted : List Message}
  {bs wire : Bytes}

/-- What had arrived by a moment does not depend on what comes later. -/
theorem heard_turnedAt (c : Course step {}) (e : ServiceEvent) {m n : Nat} (hn : n ≤ m) :
    heard (c.turnedAt m e) n = heard c n := by
  induction n with
  | zero => rfl
  | succ n ih =>
    have hle := Nat.le_of_succ_le hn
    have hsame : (c.turnedAt m e).happens n = c.happens n := if_pos hn
    rw [heard, heard, ih hle, (c.turnedAt_of_le e hle).1, hsame]

theorem Shows.goesOn (h : s.Shows handled emitted bs wire) (e : ServiceEvent)
    (handled' : List Message)
    (hcalls : Attendance.calls handled s.attendance ++ begun (s.step e).2 =
      Attendance.calls handled' (s.step e).1.attendance) :
    (s.step e).1.Shows handled' (emitted ++ (emits (s.step e).2).map Prod.fst)
      (bs ++ s.heardAt e) (wire ++ sent (s.step e).2) := by
  obtain ⟨c, n, rfl, hbegun, rfl, rfl, rfl⟩ := h
  obtain ⟨hstate, heffects⟩ := c.turnedAt_succ n e
  refine ⟨c.turnedAt n e, n + 1, hstate, ?_, ?_, ?_, ?_⟩
  · rw [heffects, begun_append, hbegun, hcalls]
  · rw [heffects, emits_append, List.map_append]
  · rw [heard, heard_turnedAt c e (Nat.le_refl n), (c.turnedAt_of_le e (Nat.le_refl n)).1,
      c.happens_turnedAt]
  · rw [heffects, sent_append]

/-! ## What can be done with the link -/

theorem Shows.onLink (h : s.Shows handled emitted bs wire) (e : LinkEvent)
    (hfree : s.holds e = false) :
    ({ s with link := (s.link.step e).1 } : Service).Shows handled emitted
      (bs ++ s.link.heardAt e) (wire ++ Link.sentBytes (s.link.step e).2) := by
  have hstep : s.step (.link e) =
      ({ s with link := (s.link.step e).1 }, (s.link.step e).2.map .link) := by
    rw [step, Service.onLink, hfree]
    rfl
  have hnext := h.goesOn (.link e) handled (by
    rw [hstep, begun_links, List.append_nil])
  rw [hstep, emits_links, List.map_nil, List.append_nil, sent, onWire_links] at hnext
  exact hnext

theorem Shows.close (h : s.Shows handled emitted bs wire) :
    ({ s with link := s.link.close } : Service).Shows handled emitted bs wire := by
  have hnext := h.onLink .close rfl
  simpa [Link.step, Link.heardAt, Link.sentBytes] using hnext

theorem Shows.emit (h : s.Shows handled emitted bs wire) (m : Message) :
    ({ s with link := s.link.emitted m } : Service).Shows handled (emitted ++ [m]) bs wire := by
  obtain ⟨counts, hcounts⟩ := Link.emit_counts s.link m
  have hquiet : (s.emit m).2 = .emitted m s.link.accepts :: (counts.map .count).map .link := by
    rw [← hcounts, ← Link.emit_fst]
    rfl
  have hnext := h.goesOn (.emit m) handled (by
    rw [step, hquiet, begun_emitted, begun_links, List.append_nil]
    rfl)
  rw [step, hquiet, emits_emitted, emits_links, sent, onWire_emitted, onWire_links,
    Link.sentBytes_counts, show s.heardAt (.emit m) = [] from rfl, List.append_nil,
    List.append_nil] at hnext
  exact hnext

theorem Shows.emitAll (ms : List Message) : ∀ (s : Service) (emitted : List Message),
    s.Shows handled emitted bs wire →
      ({ s with link := s.link.emitAll ms } : Service).Shows handled (emitted ++ ms) bs wire := by
  induction ms with
  | nil =>
    intro s emitted h
    rw [List.append_nil]
    exact h
  | cons m rest ih =>
    intro s emitted h
    rw [← List.singleton_append, ← List.append_assoc]
    exact ih _ _ (h.emit m)

/-! ## The calls of the handler -/

theorem Shows.hands (h : s.Shows handled emitted bs wire) (hidle : s.calling = none)
    (hpresent : s.attendance = .present) (ht : s.link.take? = some (m, l')) :
    (⟨l', .present, some (.message m)⟩ : Service).Shows (handled ++ [m]) emitted bs wire := by
  have hstep : s.step .call = (⟨l', .present, some (.message m)⟩, [.begins (.message m)]) := by
    simp [step, call, next?, hidle, hpresent, ht]
  have hnext := h.goesOn .call (handled ++ [m]) (by
    rw [hstep, hpresent]
    simp [Attendance.calls, begun])
  rw [hstep] at hnext
  simpa [heardAt, emits, sent, onWire, Link.sentBytes] using hnext

theorem Shows.parts (h : s.Shows handled emitted bs wire) (hidle : s.calling = none)
    (hpresent : s.attendance = .present) (hdrained : s.link.inbox = [])
    (hfinished : s.link.stage = .finished) :
    ({ s with attendance := .gone, calling := some .disconnected } : Service).Shows handled emitted
      bs wire := by
  have hstep : s.step .call =
      ({ s with attendance := .gone, calling := some .disconnected }, [.begins .disconnected]) := by
    simp [step, call, next?, Link.take?, hidle, hpresent, hdrained, hfinished]
  have hnext := h.goesOn .call handled (by
    rw [hstep, hpresent]
    simp [Attendance.calls, begun])
  rw [hstep] at hnext
  simpa [heardAt, emits, sent, onWire, Link.sentBytes] using hnext

theorem Shows.returns (h : s.Shows handled emitted bs wire) :
    ({ s with calling := none } : Service).Shows handled emitted bs wire := by
  cases hcalling : s.calling with
  | none =>
    have hsame : ({ s with calling := none } : Service) = s := by
      rw [← hcalling]
    rw [hsame]
    exact h
  | some c =>
    have hstep : s.step .back = ({ s with calling := none }, [.returns c]) := by
      simp [step, back, hcalling]
    have hnext := h.goesOn .back handled (by
      rw [hstep]
      simp [begun])
    rw [hstep] at hnext
    simpa [heardAt, emits, sent, onWire, Link.sentBytes] using hnext

/-! ## Between two calls -/

/-- The service of a link whose handler is not called: it has come, and it is gone once
the link is finished. -/
def atRest (l : Link) : Service := ⟨l, if l.stage = .finished then .gone else .present, none⟩

/-- The handler of a link has handled the given messages, and a course of its service comes
to this. -/
def Serves (l : Link) (handled emitted : List Message) (bs wire : Bytes) : Prop :=
  (atRest l).Shows handled emitted bs wire

theorem atRest_of_open (h : l.stage ≠ .finished) : atRest l = ⟨l, .present, none⟩ := by
  rw [atRest, if_neg h]

theorem Shows.serves {c : Option Call}
    (h : (⟨l, .present, c⟩ : Service).Shows handled emitted bs wire) (hopen : l.stage ≠ .finished) :
    Serves l handled emitted bs wire := by
  rw [Serves, atRest_of_open hopen]
  exact h.returns

/-- A handler has come, and it may have emitted something when it did. -/
theorem serves_start (ms : List Message) : Serves (({} : Link).emitAll ms) [] ms [] [] := by
  have hstart : ({} : Service).Shows [] [] [] [] := ⟨⟨fun _ => .back⟩, 0, rfl, rfl, rfl, rfl, rfl⟩
  have hcome : (⟨{}, .present, some .connected⟩ : Service).Shows [] [] [] [] :=
    hstart.goesOn .call [] rfl
  have hopen : (({} : Link).emitAll ms).stage ≠ .finished := by
    rw [(Link.aside_emitAll ms {}).stage]
    decide
  exact (hcome.emitAll ms).serves hopen

theorem Serves.emitAll (h : Serves l handled emitted bs wire) (ms : List Message) :
    Serves (l.emitAll ms) handled (emitted ++ ms) bs wire := by
  have hnext := Shows.emitAll ms _ _ h
  rw [Serves, atRest, (Link.aside_emitAll ms l).stage]
  exact hnext

/-- An event on the link, and the handler's last call if it finishes the link. -/
theorem Serves.onLink (h : Serves l handled emitted bs wire) (hsound : l.Sound) (e : LinkEvent) :
    Serves (l.step e).1 handled emitted (bs ++ l.heardAt e)
      (wire ++ Link.sentBytes (l.step e).2) := by
  have hmove := Link.move l e
  have hfree : (atRest l).holds e = false := by
    cases e with
    | beginFlush now =>
      unfold atRest
      split <;> rfl
    | _ => rfl
  have hnext := Shows.onLink h e hfree
  by_cases hbefore : l.stage = .finished
  · rw [Serves, atRest, if_pos (Link.finished_move hbefore hmove)]
    rw [atRest, if_pos hbefore] at hnext
    exact hnext
  · rw [atRest_of_open hbefore] at hnext
    by_cases hafter : (l.step e).1.stage = .finished
    · rw [Serves, atRest, if_pos hafter]
      have hdrained := ((hsound.move hmove).drained (by rw [hafter]; decide)).2
      exact (hnext.parts rfl rfl hdrained hafter).returns
    · rw [Serves, atRest_of_open hafter]
      exact hnext

theorem Serves.hands (h : Serves l handled emitted bs wire) (hsound : l.Sound)
    (ht : l.take? = some (m, l')) :
    (⟨l', .present, some (.message m)⟩ : Service).Shows (handled ++ [m]) emitted bs wire := by
  rw [Serves, atRest_of_open (by simp [Link.stage_of_take? hsound ht])] at h
  exact Shows.hands h rfl rfl ht

/-! ## What holds of whoever serves a link -/

/-- The calls of a handler that has come tell which messages it has handled. -/
theorem handled_of_calls {attendance : Attendance} (hcome : attendance ≠ .coming)
    (h : Attendance.calls handled attendance = Attendance.calls handled' attendance) :
    handled = handled' := by
  have hsame : handled.map Call.message = handled'.map .message := by
    cases attendance with
    | coming => exact absurd rfl hcome
    | present => exact (List.cons.inj h).2
    | gone => exact List.append_cancel_right (List.cons.inj h).2
  exact (List.map_inj_right fun _ _ => Call.message.inj).mp hsame

theorem Serves.attended (h : Serves l handled emitted bs wire) :
    ∃ calls backs, (atRest l).Attended calls backs bs handled := by
  obtain ⟨c, n, hstate, hbegun, -, rfl, -⟩ := h
  obtain ⟨handled', hattended⟩ := Service.attended c n
  have hcome : (atRest l).attendance ≠ .coming := by
    unfold atRest
    split <;> simp
  have horder := hattended.order
  rw [hbegun, hstate] at horder
  obtain rfl := handled_of_calls hcome horder
  exact ⟨_, _, hstate ▸ hattended⟩

/-- The messages that were handled are a beginning of those that arrived, and all of them
once the link is finished, if its reader was not told to stop. -/
theorem Serves.handles_in_order (h : Serves l handled emitted bs wire) :
    handled <+: messagesIn bs ∧ (l.stage = .finished → ∀ why, l.readEnd = some why →
      why ≠ .told → handled = messagesIn bs) := by
  obtain ⟨calls, backs, hattended⟩ := h.attended
  exact ⟨hattended.isPrefix, fun hfinished why hend hwhy => hattended.all (if_pos hfinished) hend hwhy⟩

theorem Serves.reads (h : Serves l handled emitted bs wire) : l.Reads bs handled := by
  obtain ⟨calls, backs, hattended⟩ := h.attended
  exact hattended.reads

theorem Serves.outgoing (h : Serves l handled emitted bs wire) : ∃ ms taken,
    (atRest l).Outgoing ms taken wire ∧ ms.map Prod.fst = emitted := by
  obtain ⟨c, n, hstate, -, rfl, -, rfl⟩ := h
  exact ⟨_, _, hstate ▸ Service.outgoing c n, rfl⟩

theorem Serves.writes_of_open (h : Serves l handled emitted bs wire) (hopen : l.closed = false) :
    l.writerStopped = false ∧ ∃ begun, l.Writes begun emitted wire := by
  obtain ⟨ms, taken, houtgoing, rfl⟩ := h.outgoing
  obtain ⟨refused, hverdicts, hnone⟩ := houtgoing.verdicts
  have hall : ms.map Prod.fst = taken := by
    rw [hverdicts, hnone hopen]
    simp [Function.comp_def]
  refine ⟨?_, hall ▸ houtgoing.writes⟩
  rw [Bool.eq_false_iff]
  intro hw
  cases hopen.symm.trans (houtgoing.shut hw)

/-- What was put on the transport is a beginning of what was emitted, up to the first message
that is too long for a frame. -/
theorem Serves.sends_in_order (h : Serves l handled emitted bs wire) :
    wire <+: bytesOf (emitted.takeWhile fun m => Frame.Fits m.body) := by
  obtain ⟨ms, taken, houtgoing, rfl⟩ := h.outgoing
  exact houtgoing.isPrefix

end ReverseTunnel.Control.Service

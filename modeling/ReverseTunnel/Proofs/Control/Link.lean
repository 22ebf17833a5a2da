import ReverseTunnel.Control.Link

/-!
What can happen on a link, and how far it has come.

`Link.Move` lists what an event can do, with what has to hold for it, and `Link.move`
says that every event does one of these. A link goes from open over flushing to
finished, and only forwards. Once it is not open any more, its reader has stopped and
everything read was handled, so that nothing is taken from it again; and a link whose
reader has stopped is closed.
-/

namespace ReverseTunnel.Control

open Wire (Message Frame)

namespace Link

/-- A link that is not open has nothing left to read or to handle. -/
structure Sound (l : Link) : Prop where
  drained : l.stage ≠ .open → l.readEnd.isSome = true ∧ l.inbox = []
  shut : l.readEnd.isSome = true → l.closed = true

variable {l l' : Link} {m : Message}

theorem sound_start : ({} : Link).Sound := ⟨fun h => absurd rfl h, fun h => by cases h⟩

/-! ## What is emitted -/

/-- The link after a message was emitted on it. -/
def emitted (l : Link) (m : Message) : Link := (l.emit m).2.1

theorem open_of_accepts (h : l.accepts = true) : l.closed = false := by
  simp only [accepts, Bool.and_eq_true, Bool.not_eq_true'] at h
  exact h.1

theorem emitted_of_accepts (h : l.accepts = true) (m : Message) :
    l.emitted m = { l with outbox := l.outbox ++ [m] } := by
  have hroom : l.outbox.length < outboxLimit := by
    simp only [accepts, Bool.and_eq_true, decide_eq_true_eq] at h
    exact h.2
  simp only [emitted, emit, open_of_accepts h]
  rw [if_neg Bool.false_ne_true, if_pos hroom]

/-- A link that does not accept is closed, if it was not. -/
theorem emitted_of_refuses (h : l.accepts = false) (m : Message) : l.emitted m = l.close := by
  unfold emitted emit
  by_cases hc : l.closed = true
  · rw [if_pos hc]
    obtain ⟨_, _, _, _, _, _, _, _, _⟩ := l
    cases hc
    rfl
  · rw [if_neg hc, if_neg (by simpa [accepts, hc] using h)]

theorem emitted_cases (l : Link) (m : Message) :
    (l.closed = false ∧ l.emitted m = { l with outbox := l.outbox ++ [m] }) ∨
      l.emitted m = l.close := by
  cases h : l.accepts with
  | true => exact .inl ⟨open_of_accepts h, emitted_of_accepts h m⟩
  | false => exact .inr (emitted_of_refuses h m)

theorem writerStopped_emitted (l : Link) (m : Message) :
    (l.emitted m).writerStopped = l.writerStopped := by
  rcases emitted_cases l m with ⟨-, h⟩ | h
  · rw [h]
  · rw [h]
    rfl

/-- Nothing but a count comes of it to the world around. -/
theorem emit_counts (l : Link) (m : Message) :
    ∃ counts : List Count, (l.emit m).2.2 = counts.map .count := by
  unfold emit
  split
  · exact ⟨[], rfl⟩
  · split
    · exact ⟨[], rfl⟩
    · exact ⟨[⟨.stalledPeers, 1⟩], rfl⟩

/-- Only the writer's side of a link has changed: what is read and handled, and how far
the link has come, is as it was. -/
structure Aside (l l' : Link) : Prop where
  unread : l'.unread = l.unread
  remoteEnded : l'.remoteEnded = l.remoteEnded
  readEnd : l'.readEnd = l.readEnd
  inbox : l'.inbox = l.inbox
  stage : l'.stage = l.stage
  closed : l.closed = true → l'.closed = true

theorem Aside.refl (l : Link) : l.Aside l := ⟨rfl, rfl, rfl, rfl, rfl, id⟩

theorem Aside.trans {k : Link} (h : k.Aside l) (h' : l.Aside l') : k.Aside l' :=
  ⟨h'.unread.trans h.unread, h'.remoteEnded.trans h.remoteEnded, h'.readEnd.trans h.readEnd,
    h'.inbox.trans h.inbox, h'.stage.trans h.stage, fun hc => h'.closed (h.closed hc)⟩

theorem aside_close (l : Link) : l.Aside l.close := ⟨rfl, rfl, rfl, rfl, rfl, fun _ => rfl⟩

theorem aside_emitted (l : Link) (m : Message) : l.Aside (l.emitted m) := by
  rcases emitted_cases l m with ⟨-, h⟩ | h
  · rw [h]
    exact ⟨rfl, rfl, rfl, rfl, rfl, id⟩
  · rw [h]
    exact aside_close l

/-- The link after several messages were emitted on it, in order. -/
def emitAll (l : Link) : List Message → Link
  | [] => l
  | m :: rest => (l.emitted m).emitAll rest

theorem emitAll_append (ms ms' : List Message) : ∀ l : Link,
    l.emitAll (ms ++ ms') = (l.emitAll ms).emitAll ms' := by
  induction ms with
  | nil => exact fun l => rfl
  | cons m rest ih => exact fun l => ih (l.emitted m)

theorem aside_emitAll (ms : List Message) : ∀ l : Link, l.Aside (l.emitAll ms) := by
  induction ms with
  | nil => exact Aside.refl
  | cons m rest ih => exact fun l => (aside_emitted l m).trans (ih _)

theorem Sound.aside (h : l.Sound) (ha : l.Aside l') : l'.Sound := by
  refine ⟨?_, fun he => ha.closed (h.shut (ha.readEnd ▸ he))⟩
  intro hs
  rw [ha.readEnd, ha.inbox]
  exact h.drained (ha.stage ▸ hs)

/-! ## What is taken -/

theorem stage_of_take? (h : l.Sound) (ht : l.take? = some (m, l')) : l.stage = .open := by
  apply Decidable.byContradiction
  intro hs
  obtain ⟨-, hinbox⟩ := h.drained hs
  simp [take?, hinbox] at ht

theorem take?_eq_some (ht : l.take? = some (m, l')) :
    l.inbox = m :: l'.inbox ∧ l' = { l with inbox := l'.inbox } := by
  unfold take? at ht
  split at ht
  · cases ht
  · rename_i hinbox
    cases ht
    exact ⟨hinbox, rfl⟩

theorem sound_take? (h : l.Sound) (ht : l.take? = some (m, l')) : l'.Sound := by
  have hopen := stage_of_take? h ht
  obtain ⟨-, hl'⟩ := take?_eq_some ht
  rw [hl']
  exact ⟨fun hs => absurd hopen hs, h.shut⟩

/-- A message is taken from a closed link as from an open one. -/
theorem take?_close (l : Link) : l.close.take? = l.take?.map fun taken => (taken.1, taken.2.close) := by
  unfold take? close
  dsimp only
  split <;> rfl

/-! ## What happens on the link itself -/

/-- What arrives with an event. -/
def heardAt (l : Link) : LinkEvent → Bytes
  | .receive bs => if l.remoteEnded then [] else bs
  | _ => []

/-- Nothing more can be read from what has arrived: it violates the framing, it begins with
a frame that carries no message, or it is no complete frame and the far end has finished. -/
def Exhausted (l : Link) : Prop :=
  match Frame.decode l.unread with
  | .error _ => True
  | .ok none => l.remoteEnded = true
  | .ok (some (frame, _)) => ∃ error, Message.ofBody frame.kind frame.body = .error error

/-- What an event can do to a link, and to the world around it. -/
inductive Move (l : Link) : LinkEvent → Link → List LinkEffect → Prop
  | rests (e : LinkEvent) (hquiet : l.heardAt e = []) : Move l e l []
  | receives (bs : Bytes) (h : l.remoteEnded = false) :
      Move l (.receive bs) { l with unread := l.unread ++ bs } []
  | ends : Move l .receiveEnd { l with remoteEnded := true } []
  | stops (e : LinkEvent) (why : ReadEnd) (counts : List Count) (hquiet : l.heardAt e = [])
      (h : l.readEnd = none) (hwhy : why ≠ .told → l.Exhausted) :
      Move l e (l.stopReading why) (counts.map .count)
  | reads (frame : Frame) (rest : Bytes) (m : Message) (h : l.readEnd = none)
      (hdecode : Frame.decode l.unread = .ok (some (frame, rest)))
      (hbody : Message.ofBody frame.kind frame.body = .ok m) :
      Move l .read { l with unread := rest, inbox := l.inbox ++ [m] } []
  | closes : Move l .close l.close []
  | begins (m : Message) (rest : List Message) (bs : Bytes) (hw : l.writerStopped = false)
      (hsending : l.sending = []) (houtbox : l.outbox = m :: rest)
      (hfits : Frame.append m.kind.code m.body [] = .ok bs) :
      Move l .beginFrame { l with outbox := rest, sending := bs } []
  | jams (m : Message) (rest : List Message) (error : Wire.FrameError)
      (hw : l.writerStopped = false) (houtbox : l.outbox = m :: rest)
      (htoo : Frame.append m.kind.code m.body [] = .error error) :
      Move l .beginFrame { l with outbox := rest, writerStopped := true, closed := true } []
  | transmits (n : Nat) (hw : l.writerStopped = false) :
      Move l (.transmit n) { l with sending := l.sending.drop n } [.sent (l.sending.take n)]
  | fails (hw : l.writerStopped = false) :
      Move l .failWriting { l with writerStopped := true, closed := true, sending := [], outbox := [] }
        []
  | endsWriting (hw : l.writerStopped = false) (hclosed : l.closed = true) (houtbox : l.outbox = [])
      (hsending : l.sending = []) : Move l .endWriting { l with writerStopped := true } [.sentEnd]
  | flushes (now : Nat) (hopen : l.stage = .open) (hread : l.readEnd.isSome = true)
      (hinbox : l.inbox = []) : Move l (.beginFlush now) { l with stage := .flushing now } []
  | givesUp (now since : Nat) (hstage : l.stage = .flushing since) (hlate : since + flushLimit ≤ now)
      (hw : l.writerStopped = false) :
      Move l (.giveUp now) { l with writerStopped := true, sending := [], outbox := [] } []
  | finishes (since : Nat) (hstage : l.stage = .flushing since) (hw : l.writerStopped = true) :
      Move l .finish { l with stage := .finished } [.sentEnd]

theorem move_read (l : Link) : Move l .read l.read.1 l.read.2 := by
  unfold read
  split
  · exact .rests _ rfl
  · rename_i hr
    have hnone : l.readEnd = none := by simpa using hr
    split
    · rename_i hdecode
      exact .stops _ _ [_] rfl hnone fun _ => by simp only [Exhausted, hdecode]
    · rename_i hdecode
      split
      · exact .rests _ rfl
      · rename_i hended
        have hexhausted : l.Exhausted := by
          simp only [Exhausted, hdecode]
          simpa using hended
        split
        · exact .stops _ _ [] rfl hnone fun _ => hexhausted
        · exact .stops _ _ [_] rfl hnone fun _ => hexhausted
    · rename_i frame rest hdecode
      split
      · rename_i error hbody
        exact .stops _ _ [] rfl hnone fun _ => by
          simp only [Exhausted, hdecode]
          exact ⟨error, hbody⟩
      · rename_i m hbody
        split
        · exact .reads frame rest m hnone hdecode hbody
        · exact .rests _ rfl

theorem move_beginFrame (l : Link) : Move l .beginFrame l.beginFrame [] := by
  unfold beginFrame
  split
  · exact .rests _ rfl
  · rename_i hidle
    simp only [Bool.or_eq_true, Bool.not_eq_true', not_or, Bool.not_eq_true, Bool.not_eq_false,
      List.isEmpty_iff] at hidle
    split
    · exact .rests _ rfl
    · rename_i m rest houtbox
      split
      · rename_i bs hfits
        exact .begins m rest bs hidle.1 hidle.2 houtbox hfits
      · rename_i error htoo
        exact .jams m rest error hidle.1 houtbox htoo

theorem move_receive (l : Link) (bs : Bytes) : Move l (.receive bs) (l.receive bs) [] := by
  unfold receive
  split
  · rename_i h
    exact .rests _ (if_pos h)
  · rename_i h
    exact .receives bs (by simpa using h)

theorem move_noticeClose (l : Link) : Move l .noticeClose l.noticeClose [] := by
  unfold noticeClose
  split
  · rename_i h
    simp only [Bool.and_eq_true, Option.isNone_iff_eq_none] at h
    exact .stops _ _ [] rfl h.1 fun hwhy => absurd rfl hwhy
  · exact .rests _ rfl

theorem move_shutDown (l : Link) : Move l .shutDown l.shutDown [] := by
  unfold shutDown
  split
  · rename_i h
    exact .stops _ _ [] rfl (Option.isNone_iff_eq_none.mp h) fun hwhy => absurd rfl hwhy
  · exact .rests _ rfl

theorem move_transmit (l : Link) (n : Nat) :
    Move l (.transmit n) (l.transmit n).1 (l.transmit n).2 := by
  unfold transmit
  split
  · exact .rests _ rfl
  · rename_i h
    simp only [Bool.or_eq_true, not_or, Bool.not_eq_true] at h
    exact .transmits n h.1

theorem move_failWriting (l : Link) : Move l .failWriting l.failWriting [] := by
  unfold failWriting
  split
  · exact .rests _ rfl
  · rename_i h
    exact .fails (by simpa using h)

theorem move_endWriting (l : Link) : Move l .endWriting l.endWriting.1 l.endWriting.2 := by
  unfold endWriting
  split
  · rename_i h
    simp only [Bool.and_eq_true, Bool.not_eq_true', List.isEmpty_iff] at h
    obtain ⟨⟨⟨hw, hclosed⟩, houtbox⟩, hsending⟩ := h
    exact .endsWriting hw hclosed houtbox hsending
  · exact .rests _ rfl

theorem move_beginFlush (l : Link) (now : Nat) :
    Move l (.beginFlush now) (l.beginFlush now) [] := by
  unfold beginFlush
  split
  · rename_i h
    exact .flushes now h.1 h.2.1 h.2.2
  · exact .rests _ rfl

theorem move_giveUp (l : Link) (now : Nat) : Move l (.giveUp now) (l.giveUp now) [] := by
  unfold giveUp
  split
  · rename_i since hstage
    split
    · rename_i h
      exact .givesUp now since hstage h.1 h.2
    · exact .rests _ rfl
  · exact .rests _ rfl

theorem move_finish (l : Link) : Move l .finish l.finish.1 l.finish.2 := by
  unfold finish
  split
  · rename_i since hstage
    split
    · rename_i hw
      exact .finishes since hstage hw
    · exact .rests _ rfl
  · exact .rests _ rfl

theorem move (l : Link) (e : LinkEvent) : Move l e (l.step e).1 (l.step e).2 := by
  cases e with
  | receive bs => exact move_receive l bs
  | receiveEnd => exact .ends
  | read => exact move_read l
  | noticeClose => exact move_noticeClose l
  | shutDown => exact move_shutDown l
  | close => exact .closes
  | beginFrame => exact move_beginFrame l
  | transmit n => exact move_transmit l n
  | failWriting => exact move_failWriting l
  | endWriting => exact move_endWriting l
  | beginFlush now => exact move_beginFlush l now
  | giveUp now => exact move_giveUp l now
  | finish => exact move_finish l

/-! ## What every event keeps -/

theorem stage_open_of_readEnd (h : l.Sound) (hr : l.readEnd = none) : l.stage = .open := by
  apply Decidable.byContradiction
  intro hs
  obtain ⟨hsome, -⟩ := h.drained hs
  simp [hr] at hsome

variable {e : LinkEvent} {fx : List LinkEffect}

theorem Sound.move (h : l.Sound) (hm : Move l e l' fx) : l'.Sound := by
  cases hm with
  | rests => exact h
  | stops _ why counts _ hr => exact ⟨fun hs => absurd (stage_open_of_readEnd h hr) hs, fun _ => rfl⟩
  | reads frame rest m hr => exact ⟨fun hs => absurd (stage_open_of_readEnd h hr) hs, h.shut⟩
  | closes => exact ⟨h.drained, fun _ => rfl⟩
  | jams => exact ⟨h.drained, fun _ => rfl⟩
  | fails => exact ⟨h.drained, fun _ => rfl⟩
  | flushes now hopen hread hinbox => exact ⟨fun _ => ⟨hread, hinbox⟩, h.shut⟩
  | finishes since hstage => exact ⟨fun _ => h.drained (by simp [hstage]), h.shut⟩
  | receives | ends | begins | transmits | endsWriting | givesUp => exact ⟨h.drained, h.shut⟩

theorem closed_move (h : l.closed = true) (hm : Move l e l' fx) : l'.closed = true := by
  cases hm with
  | stops | closes | jams | fails => rfl
  | _ => exact h

theorem stopped_move (h : l.writerStopped = true) (hm : Move l e l' fx) :
    l'.writerStopped = true ∧ ∀ bs, .sent bs ∉ fx := by
  cases hm with
  | begins _ _ _ hw | jams _ _ _ hw | transmits _ hw | fails hw | endsWriting hw | givesUp _ _ _ _ hw =>
    cases h.symm.trans hw
  | _ => exact ⟨h, by simp⟩

/-- Why a writer stops: all is written, or a message is too long for a frame, or the
transport has failed, or its time is up. -/
theorem stops_move (h : l.writerStopped = false) (hm : Move l e l' fx)
    (h' : l'.writerStopped = true) :
    (fx = [.sentEnd] ∧ l.closed = true ∧ l.outbox = [] ∧ l.sending = []) ∨
      (∃ m ∈ l.outbox, ∃ error, Frame.append m.kind.code m.body [] = .error error) ∨
      e = .failWriting ∨
      ∃ since now, l.stage = .flushing since ∧ since + flushLimit ≤ now ∧ e = .giveUp now := by
  cases hm with
  | endsWriting _ hclosed houtbox hsending => exact .inl ⟨rfl, hclosed, houtbox, hsending⟩
  | jams m rest error _ houtbox htoo =>
    exact .inr (.inl ⟨m, houtbox ▸ List.mem_cons_self, error, htoo⟩)
  | fails => exact .inr (.inr (.inl rfl))
  | givesUp now since hstage hlate => exact .inr (.inr (.inr ⟨since, now, hstage, hlate, rfl⟩))
  | finishes _ _ hw => cases h.symm.trans hw
  | _ => cases h.symm.trans h'

/-- The far end is told that nothing more comes only by a writer that has stopped. -/
theorem stopped_of_sentEnd (hm : Move l e l' fx) (hend : .sentEnd ∈ fx) : l'.writerStopped = true := by
  cases hm with
  | endsWriting => rfl
  | finishes _ _ hw => exact hw
  | _ => simp at hend

theorem readEnd_move {why : ReadEnd} (h : l.readEnd = some why) (hm : Move l e l' fx) :
    l'.readEnd = some why := by
  cases hm with
  | stops _ _ _ _ hr => simp [hr] at h
  | _ => exact h

theorem finished_move (h : l.stage = .finished) (hm : Move l e l' fx) : l'.stage = .finished := by
  cases hm with
  | flushes now hopen => simp [h] at hopen
  | finishes => rfl
  | _ => exact h

/-- A writer has stopped only on a closed link. -/
theorem shut_move (h : l.Sound) (hw : l.writerStopped = true → l.closed = true)
    (hm : Move l e l' fx) : l'.writerStopped = true → l'.closed = true := by
  cases hm with
  | stops | closes | jams | fails => exact fun _ => rfl
  | endsWriting _ hclosed => exact fun _ => hclosed
  | givesUp now since hstage => exact fun _ => h.shut (h.drained (by simp [hstage])).1
  | _ => exact hw

/-! ## What is counted -/

theorem metric_of_step {l : Link} {y : LinkEvent} {n : Count} (h : .count n ∈ (l.step y).2) :
    n.metric = .framingViolations := by
  cases y with
  | read =>
    have hone : .count n ∈ [Link.violationCount] → n.metric = .framingViolations := fun h => by
      cases List.mem_singleton.mp h
      rfl
    simp only [Link.step, Link.read] at h
    -- two of the ways in which a reader stops are counted
    repeat' split at h
    all_goals first | exact hone h | cases h
  | transmit k =>
    simp only [Link.step, Link.transmit] at h
    split at h <;> simp at h
  | endWriting =>
    simp only [Link.step, Link.endWriting] at h
    split at h <;> simp at h
  | finish =>
    simp only [Link.step, Link.finish] at h
    split at h
    · split at h <;> simp at h
    · simp at h
  | _ => cases h

theorem metric_of_emit {n : Count} (h : .count n ∈ (l.emit m).2.2) : n.metric = .stalledPeers := by
  simp only [emit] at h
  split at h
  · cases h
  · split at h
    · cases h
    · cases List.mem_singleton.mp h
      rfl

end Link

end ReverseTunnel.Control

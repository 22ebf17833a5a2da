import ReverseTunnel.Proofs.Control.Carrying
import ReverseTunnel.Proofs.Course

/-!
The writer of a closed link, in whatever system the link is kept.

A `Carrier` says how a system keeps a link: where in its state it is, and which of its
events and effects are those of the link. Once the link is closed, an event of the system is
a step of the link or nothing to its writer (`Carrier.OnClosed`); a course of which that
holds carries the link (`Carrier.Carries`).

What is proved of every such course:
1. `Keeping.comes_to_stop`: if the transport does not fail and the far end keeps reading, the
   writer stops some time after the link is closed. `unwritten` counts what is to be done
   until then.
2. `Keeping.delivers`: when it stops, what is on the transport is what was accepted, up to
   the first message that is too long for a frame, unless its time was up (`CutOff`); and
   nothing comes after that.

`Keeping` is all that is assumed, and it is about scheduling alone: it says nothing of how
soon the far end reads. Events carry their own times, and no clock orders them.
-/

namespace ReverseTunnel.Control

open Wire (Message Frame bytesOf)

namespace Link

variable {l l' : Link} {y : LinkEvent}

/-! ## What a writer has to do -/

/-- What is still to be done until the writer stops. -/
def unwritten (l : Link) : Nat :=
  if l.writerStopped then 0
  else 1 + l.sending.length + l.outbox.length + (bytesOf l.outbox).length

/-- Two links are alike to their writers. -/
structure WritesAlike (l l' : Link) : Prop where
  writer : l'.writerStopped = l.writerStopped
  sending : l'.sending = l.sending
  outbox : l'.outbox = l.outbox

theorem WritesAlike.refl (l : Link) : l.WritesAlike l := ⟨rfl, rfl, rfl⟩

theorem WritesAlike.trans {k : Link} (h : k.WritesAlike l) (h' : l.WritesAlike l') :
    k.WritesAlike l' :=
  ⟨h'.writer.trans h.writer, h'.sending.trans h.sending, h'.outbox.trans h.outbox⟩

theorem WritesAlike.writes {begun accepted : List Message} {sent : Bytes} (h : l.WritesAlike l')
    (hw : l.Writes begun accepted sent) : l'.Writes begun accepted sent where
  fits := hw.fits
  order := hw.order
  onWire := hw.onWire
  going := by
    rw [h.writer, h.sending, h.outbox]
    exact hw.going

theorem writesAlike_close (l : Link) : l.WritesAlike l.close := ⟨rfl, rfl, rfl⟩

theorem writesAlike_emitted (hclosed : l.closed = true) (m : Message) :
    l.WritesAlike (l.emitted m) := by
  have hrefuses : l.accepts = false := by simp [accepts, hclosed]
  rw [emitted_of_refuses hrefuses]
  exact writesAlike_close l

theorem writesAlike_emitAll (more : List Message) : ∀ {l : Link}, l.closed = true →
    l.WritesAlike (l.emitAll more) := by
  induction more with
  | nil => exact fun _ => .refl _
  | cons m rest ih =>
    exact fun hclosed => (writesAlike_emitted hclosed m).trans
      (ih ((aside_emitted _ m).closed hclosed))

theorem writesAlike_take? {m : Message} (ht : l.take? = some (m, l')) : l.WritesAlike l' := by
  obtain ⟨-, hl'⟩ := take?_eq_some ht
  rw [hl']
  exact ⟨rfl, rfl, rfl⟩

theorem WritesAlike.unwritten_eq (h : l.WritesAlike l') : l'.unwritten = l.unwritten := by
  rw [unwritten, unwritten, h.writer, h.sending, h.outbox]

theorem unwritten_pos_iff : 0 < l.unwritten ↔ l.writerStopped = false := by
  rw [unwritten]
  cases l.writerStopped with
  | true => simp
  | false =>
    simp only [Bool.false_eq_true, if_false, iff_true]
    omega

/-- Every step of the writer leaves less to be done, and no other event changes it. -/
theorem unwritten_move {fx : List LinkEffect} (hm : l.Move y l' fx) :
    l'.unwritten < l.unwritten ∨ l.WritesAlike l' := by
  cases hm with
  | begins m rest bs hw hsending houtbox hfits =>
    obtain ⟨-, hbs⟩ := Frame.append_eq_ok.mp hfits
    have hlength : (bytesOf (m :: rest)).length = bs.length + (bytesOf rest).length := by
      rw [hbs, ← List.singleton_append, Wire.bytesOf_append, List.length_append]
      simp [bytesOf, Message.frame, Frame.bytes]
    left
    simp only [unwritten, hw, hsending, houtbox, hlength, List.length_cons, List.length_nil]
    rw [if_neg Bool.false_ne_true, if_neg Bool.false_ne_true]
    omega
  | transmits size hw =>
    rcases Nat.eq_zero_or_pos size with rfl | hsize
    · exact .inr ⟨rfl, List.drop_zero, rfl⟩
    · by_cases hsending : l.sending = []
      · exact .inr ⟨rfl, by simp [hsending], rfl⟩
      · left
        have hpos := List.length_pos_iff.mpr hsending
        simp [unwritten, hw]
        omega
  | jams _ _ _ hw | fails hw | endsWriting hw | givesUp _ _ _ _ hw =>
    left
    exact unwritten_pos_iff.mpr hw
  | rests | receives | ends | stops | reads | closes | flushes | finishes =>
    exact .inr ⟨rfl, rfl, rfl⟩

/-- What the writer of a closed link does next, if it can. -/
inductive Expects (l : Link) : LinkEvent → Prop
  | take (size : Nat) (hw : l.writerStopped = false) (hsending : l.sending ≠ [])
      (hsize : 0 < size) : Expects l (.transmit size)
  | begin (hw : l.writerStopped = false) (hsending : l.sending = []) (houtbox : l.outbox ≠ []) :
      Expects l .beginFrame
  | finish (hw : l.writerStopped = false) (hsending : l.sending = []) (houtbox : l.outbox = []) :
      Expects l .endWriting

theorem WritesAlike.expects (h : l.WritesAlike l') (he : l.Expects y) : l'.Expects y := by
  cases he with
  | take size hw hsending hsize =>
    exact .take size (h.writer.trans hw) (h.sending ▸ hsending) hsize
  | begin hw hsending houtbox =>
    exact .begin (h.writer.trans hw) (h.sending.trans hsending) (h.outbox ▸ houtbox)
  | finish hw hsending houtbox =>
    exact .finish (h.writer.trans hw) (h.sending.trans hsending) (h.outbox.trans houtbox)

theorem not_writesAlike (hclosed : l.closed = true) (he : l.Expects y) :
    ¬l.WritesAlike (l.step y).1 := by
  intro h
  cases he with
  | take size hw hsending hsize =>
    have hsent := congrArg List.length h.sending
    have hpos := List.length_pos_iff.mpr hsending
    simp [step, transmit, hw, hsending, Nat.ne_of_gt hsize] at hsent
    omega
  | begin hw hsending houtbox =>
    obtain ⟨m, rest, hrest⟩ := List.exists_cons_of_ne_nil houtbox
    have houtbox' := h.outbox
    simp [step, beginFrame, hw, hsending, hrest] at houtbox'
    split at houtbox' <;> simp at houtbox'
  | finish hw hsending houtbox =>
    have hw' := h.writer
    simp [step, endWriting, hw, hclosed, hsending, houtbox] at hw'

end Link

/-! ## A link in a system -/

/-- How a system keeps a link. -/
structure Carrier (σ ε φ : Type) where
  link? : σ → Option Link
  event : LinkEvent → ε
  event_inj : ∀ {y z}, event y = event z → y = z
  effect : LinkEffect → φ
  /-- What an effect of the system does on the link. -/
  onLink? : φ → Option LinkEffect
  onLink?_eq_some : ∀ {x y}, onLink? x = some y ↔ x = effect y

namespace Carrier

variable {σ ε φ : Type} (K : Carrier σ ε φ)

/-- The bytes that effects put on the transport of the link. -/
def sent (fx : List φ) : Bytes := Link.sentBytes (fx.filterMap K.onLink?)

/-- What an event can do to a link that is closed: it makes a step, or nothing comes of it to
its writer. -/
inductive OnClosed (l : Link) : ε → Link → List φ → Prop
  | steps (y : LinkEvent) : OnClosed l (K.event y) (l.step y).1 ((l.step y).2.map K.effect)
  | rests (e : ε) (l' : Link) (fx : List φ) (helse : ∀ y, l.Expects y → e ≠ K.event y)
      (halike : l.WritesAlike l') (hquiet : ∀ y, K.effect y ∈ fx → ∃ n, y = .count n) :
      OnClosed l e l' fx

/-- The link is closed. -/
def Shut (s : σ) : Prop := ∃ l, K.link? s = some l ∧ l.closed = true

/-- The link is closed, and its writer has stopped. -/
def Stopped (s : σ) : Prop := ∃ l, K.link? s = some l ∧ l.closed = true ∧ l.writerStopped = true

/-- The link is closed, and the writer's account of it is right. -/
def Closing (s : σ) (accepted : List Message) (sent : Bytes) : Prop :=
  ∃ l begun, K.link? s = some l ∧ l.closed = true ∧ l.Writes begun accepted sent

/-- What the writer has still to do. -/
def left (s : σ) : Nat := ((K.link? s).map Link.unwritten).getD 0

/-- An event is what the writer does next. -/
def Awaits (s : σ) (e : ε) : Prop := ∃ l y, K.link? s = some l ∧ l.Expects y ∧ e = K.event y

variable {s s' : σ} {e : ε} {fx fx' : List φ} {l l' : Link}

@[simp] theorem sent_nil : K.sent [] = [] := rfl

theorem sent_append : K.sent (fx ++ fx') = K.sent fx ++ K.sent fx' := by
  rw [sent, sent, sent, List.filterMap_append, Link.sentBytes_append]

theorem sent_effects (ls : List LinkEffect) : K.sent (ls.map K.effect) = Link.sentBytes ls := by
  have hown : K.onLink? ∘ K.effect = some := funext fun _ => K.onLink?_eq_some.mpr rfl
  rw [sent, List.filterMap_map, hown, List.filterMap_some]

theorem sent_of_counts (h : ∀ y, K.effect y ∈ fx → ∃ n, y = .count n) : K.sent fx = [] := by
  apply Link.sentBytes_of_quiet
  intro bs hbs
  obtain ⟨x, hx, hon⟩ := List.mem_filterMap.mp hbs
  obtain ⟨n, hn⟩ := h _ (K.onLink?_eq_some.mp hon ▸ hx)
  cases hn

variable {K}

theorem left_of_link? (hl : K.link? s = some l) : K.left s = l.unwritten := by
  rw [left, hl]
  rfl

/-- What the writer awaits gets it on, and nothing else adds to what is left or changes what
is awaited. -/
theorem OnClosed.left (h : K.OnClosed l e l' fx) (hl : K.link? s = some l) (hclosed : l.closed = true)
    (hl' : K.link? s' = some l') : K.left s' < K.left s ∨
      K.left s' = K.left s ∧ ¬K.Awaits s e ∧ ∀ e', K.Awaits s e' → K.Awaits s' e' := by
  have hkeeps (halike : l.WritesAlike l') : ∀ e', K.Awaits s e' → K.Awaits s' e' := by
    rintro e' ⟨k, y, hk, hexpects, rfl⟩
    cases hl.symm.trans hk
    exact ⟨l', y, hl', halike.expects hexpects, rfl⟩
  rw [left_of_link? hl, left_of_link? hl']
  cases h with
  | steps y =>
    rcases Link.unwritten_move (Link.move l y) with hless | halike
    · exact .inl hless
    · refine .inr ⟨halike.unwritten_eq, ?_, hkeeps halike⟩
      rintro ⟨k, z, hk, hexpects, he⟩
      cases hl.symm.trans hk
      cases K.event_inj he
      exact Link.not_writesAlike hclosed hexpects halike
  | rests _ _ _ helse halike =>
    refine .inr ⟨halike.unwritten_eq, ?_, hkeeps halike⟩
    rintro ⟨k, y, hk, hexpects, he⟩
    cases hl.symm.trans hk
    exact helse y hexpects he

theorem OnClosed.writes {begun accepted : List Message} {bs : Bytes} (h : K.OnClosed l e l' fx)
    (hw : l.Writes begun accepted bs) : ∃ begun', l'.Writes begun' accepted (bs ++ K.sent fx) := by
  cases h with
  | steps y =>
    rw [sent_effects]
    exact hw.move (Link.move l y)
  | rests _ _ _ _ halike hquiet =>
    rw [K.sent_of_counts hquiet, List.append_nil]
    exact ⟨begun, halike.writes hw⟩

theorem OnClosed.stopped (h : K.OnClosed l e l' fx) (hw : l.writerStopped = true) :
    l'.writerStopped = true ∧ K.sent fx = [] := by
  cases h with
  | steps y =>
    obtain ⟨hw', hquiet⟩ := Link.stopped_move hw (Link.move l y)
    rw [sent_effects]
    exact ⟨hw', Link.sentBytes_of_quiet hquiet⟩
  | rests _ _ _ _ halike hquiet => exact ⟨halike.writer.trans hw, K.sent_of_counts hquiet⟩

/-! ## Courses -/

variable {step : σ → ε → σ × List φ} {start : σ}

/-- In a course, the link is carried as it should be once it is closed, and only a writer that
has stopped tells the far end that nothing more comes. -/
structure Carries (K : Carrier σ ε φ) (c : Course step start) : Prop where
  closed : ∀ n l, K.link? (c.state n) = some l → l.closed = true →
    ∃ l', K.link? (c.state (n + 1)) = some l' ∧ l'.closed = true ∧
      K.OnClosed l (c.happens n) l' (c.effectsAt n)
  ends : ∀ n, K.effect .sentEnd ∈ c.effectsAt n → K.Stopped (c.state (n + 1))

/-- The transport of the link does not fail, and the far end keeps reading: again and again,
the writer can get on. -/
structure Keeping (K : Carrier σ ε φ) (c : Course step start) : Prop where
  sound : ∀ n, c.happens n ≠ K.event .failWriting
  begins : ∀ n, ∃ k, n ≤ k ∧ c.happens k = K.event .beginFrame
  takes : ∀ n, ∃ k, n ≤ k ∧ ∃ size, 0 < size ∧ c.happens k = K.event (.transmit size)
  ends : ∀ n, ∃ k, n ≤ k ∧ c.happens k = K.event .endWriting

/-- At a moment, the writer has not stopped and its time is up: as long as it may take has
passed since everything read was handled. -/
def CutOff (K : Carrier σ ε φ) (c : Course step start) (n : Nat) : Prop :=
  ∃ l since now, K.link? (c.state n) = some l ∧ l.stage = .flushing since ∧
    l.writerStopped = false ∧ c.happens n = K.event (.giveUp now) ∧ since + flushLimit ≤ now

variable {c : Course step start} {n k : Nat}

theorem Carries.shut_from (h : K.Carries c) (hnk : n ≤ k) (hshut : K.Shut (c.state n)) :
    K.Shut (c.state k) := by
  induction hnk with
  | refl => exact hshut
  | @step k _ ih =>
    obtain ⟨l, hl, hclosed⟩ := ih
    obtain ⟨l', hl', hclosed', -⟩ := h.closed k l hl hclosed
    exact ⟨l', hl', hclosed'⟩

theorem Carries.closing_from {accepted : List Message} (h : K.Carries c) (hnk : n ≤ k)
    (hclosing : K.Closing (c.state n) accepted (K.sent (c.effects n))) :
    K.Closing (c.state k) accepted (K.sent (c.effects k)) := by
  induction hnk with
  | refl => exact hclosing
  | @step k _ ih =>
    obtain ⟨l, begun, hl, hclosed, hw⟩ := ih
    obtain ⟨l', hl', hclosed', hon⟩ := h.closed k l hl hclosed
    obtain ⟨begun', hw'⟩ := hon.writes hw
    rw [Course.effects, sent_append]
    exact ⟨l', begun', hl', hclosed', hw'⟩

theorem Carries.stopped_from (h : K.Carries c) (hnk : n ≤ k) (hstopped : K.Stopped (c.state n)) :
    K.Stopped (c.state k) ∧ K.sent (c.effects k) = K.sent (c.effects n) := by
  induction hnk with
  | refl => exact ⟨hstopped, rfl⟩
  | @step k _ ih =>
    obtain ⟨⟨l, hl, hclosed, hw⟩, hsame⟩ := ih
    obtain ⟨l', hl', hclosed', hon⟩ := h.closed k l hl hclosed
    obtain ⟨hw', hquiet⟩ := hon.stopped hw
    rw [Course.effects, sent_append, hquiet, List.append_nil]
    exact ⟨⟨l', hl', hclosed', hw'⟩, hsame⟩

/-- What the writer of a kept link can do next is done some time. -/
theorem Keeping.comes (hc : K.Keeping c) (hl : K.link? s = some l) (hw : l.writerStopped = false)
    (n : Nat) : ∃ k, n ≤ k ∧ K.Awaits s (c.happens k) := by
  by_cases hsending : l.sending = []
  · by_cases houtbox : l.outbox = []
    · obtain ⟨k, hk, he⟩ := hc.ends n
      exact ⟨k, hk, l, _, hl, .finish hw hsending houtbox, he⟩
    · obtain ⟨k, hk, he⟩ := hc.begins n
      exact ⟨k, hk, l, _, hl, .begin hw hsending houtbox, he⟩
  · obtain ⟨k, hk, size, hsize, he⟩ := hc.takes n
    exact ⟨k, hk, l, _, hl, .take size hw hsending hsize, he⟩

theorem Keeping.comes_to_stop (hc : K.Keeping c) (h : K.Carries c) (hshut : K.Shut (c.state n)) :
    ∃ k, n ≤ k ∧ K.Stopped (c.state k) := by
  obtain ⟨k, hnk, hnothing⟩ := c.runs_down K.left K.Awaits (m := n)
    (by
      intro k hnk hpos
      obtain ⟨l, hl, -⟩ := h.shut_from hnk hshut
      rw [left_of_link? hl, Link.unwritten_pos_iff] at hpos
      exact hc.comes hl hpos k)
    (by
      intro k hnk
      obtain ⟨l, hl, hclosed⟩ := h.shut_from hnk hshut
      obtain ⟨l', hl', -, hon⟩ := h.closed k l hl hclosed
      exact hon.left hl hclosed hl')
  obtain ⟨l, hl, hclosed⟩ := h.shut_from hnk hshut
  refine ⟨k, hnk, l, hl, hclosed, ?_⟩
  rw [left_of_link? hl] at hnothing
  rw [← Bool.not_eq_false, ← Link.unwritten_pos_iff]
  omega

/-- The writer of a closed link that is kept stops some time, and nothing more is put on the
transport then. Unless its time is up at that moment, what was accepted is on the transport,
up to the first message that is too long for a frame, and if there is none the far end is
told that nothing more comes, which it was not before. -/
theorem Keeping.delivers (hc : K.Keeping c) (h : K.Carries c) {accepted : List Message}
    (hclosing : K.Closing (c.state n) accepted (K.sent (c.effects n)))
    (hgoing : ¬K.Stopped (c.state n)) :
    ∃ k, n ≤ k ∧ (∀ j, j < k → K.effect .sentEnd ∉ c.effectsAt j) ∧
      (∀ j, k ≤ j → K.sent (c.effects j) = K.sent (c.effects k)) ∧
      (K.CutOff c k ∨
        K.sent (c.effects k) = bytesOf (accepted.takeWhile fun m => Frame.Fits m.body) ∧
        ((∀ m ∈ accepted, Frame.Fits m.body) → c.effectsAt k = [K.effect .sentEnd])) := by
  obtain ⟨l, -, hl, hclosed, -⟩ := id hclosing
  obtain ⟨stop, hstop, hstopped⟩ := hc.comes_to_stop h ⟨l, hl, hclosed⟩
  -- the step with which the writer stops
  obtain ⟨k, hnk, -, hbefore, hafter⟩ := Course.begins_between
    (P := fun k => K.Stopped (c.state k)) hstop hgoing hstopped
  obtain ⟨l, begun, hl, hclosed, hw⟩ := h.closing_from hnk hclosing
  obtain ⟨l', hl', hclosed', hon⟩ := h.closed k l hl hclosed
  have hwriting : l.writerStopped = false := by
    rw [Bool.eq_false_iff]
    exact fun hw => hbefore ⟨l, hl, hclosed, hw⟩
  have hw' : l'.writerStopped = true := by
    obtain ⟨l'', hl'', -, hw''⟩ := hafter
    cases hl'.symm.trans hl''
    exact hw''
  have hlast : K.sent (c.effectsAt k) = [] ∧ (K.CutOff c k ∨
      K.sent (c.effects k) = bytesOf (accepted.takeWhile fun m => Frame.Fits m.body) ∧
      ((∀ m ∈ accepted, Frame.Fits m.body) → c.effectsAt k = [K.effect .sentEnd])) := by
    generalize hfx : c.effectsAt k = fx at hon
    generalize he : c.happens k = e at hon
    cases hon with
    | steps y =>
      obtain ⟨hquiet, hreason⟩ := hw.stops hwriting hw' fun hfails => hc.sound k (hfails ▸ he)
      rw [sent_effects]
      refine ⟨hquiet, hreason.imp ?_ ?_⟩
      · rintro ⟨since, now, hstage, hlate, rfl⟩
        exact ⟨l, since, now, hl, hstage, hwriting, he, hlate⟩
      · rintro ⟨hsent, hend⟩
        exact ⟨hsent, fun hfits => congrArg (List.map K.effect) (hend hfits)⟩
    | rests _ _ _ _ halike => cases (halike.writer.trans hwriting).symm.trans hw'
  refine ⟨k, hnk, fun j hjk hends => ?_, fun j hkj => ?_, hlast.2⟩
  · exact hbefore (h.stopped_from hjk (h.ends j hends)).1
  · rcases Nat.eq_or_lt_of_le hkj with rfl | hkj
    · rfl
    · rw [(h.stopped_from hkj hafter).2, Course.effects, sent_append, hlast.1, List.append_nil]

/-! ## Courses in which the writer gets on -/

/-- What the writer does in turn. -/
def writerTurn (K : Carrier σ ε φ) (_ : Nat) : Nat → ε
  | 0 => K.event .beginFrame
  | 1 => K.event (.transmit 10)
  | _ => K.event .endWriting

section

variable {events : List ε} {y : LinkEvent}

theorem mem_or_writes (hturn : c = .thenInTurn events 3 K.writerTurn)
    (hy : c.happens n = K.event y) :
    K.event y ∈ events ∨ y = .beginFrame ∨ y = .transmit 10 ∨ y = .endWriting := by
  rcases Course.mem_or_turn hturn n with hmem | ⟨i, hi⟩
  · exact .inl (hy ▸ hmem)
  · right
    rw [hy, writerTurn.eq_def] at hi
    split at hi
    · exact .inl (K.event_inj hi)
    · exact .inr (.inl (K.event_inj hi))
    · exact .inr (.inr (K.event_inj hi))

/-- A link is kept whose writer gets on in turn from some moment on, if its transport has not
failed before. -/
theorem keeping_thenInTurn (hturn : c = .thenInTurn events 3 K.writerTurn)
    (hsound : K.event .failWriting ∉ events) : K.Keeping c where
  sound n h := by
    rcases mem_or_writes hturn h with hmem | hw | hw | hw
    · exact hsound hmem
    · cases hw
    · cases hw
    · cases hw
  begins n := Course.comes_in_turn hturn n (show 0 < 3 by decide)
  takes n := by
    obtain ⟨k, hk, he⟩ := Course.comes_in_turn hturn n (show 1 < 3 by decide)
    exact ⟨k, hk, 10, by decide, he⟩
  ends n := Course.comes_in_turn hturn n (show 2 < 3 by decide)

/-- A writer is not cut off if no event calls its time up that late. -/
theorem not_cutOff_thenInTurn (hturn : c = .thenInTurn events 3 K.writerTurn)
    (hearly : ∀ now, K.event (.giveUp now) ∈ events → now < flushLimit) : ¬K.CutOff c n := by
  rintro ⟨l, since, now, -, -, -, he, hlate⟩
  rcases mem_or_writes hturn he with hmem | hw | hw | hw
  · have hnow := hearly now hmem
    omega
  · cases hw
  · cases hw
  · cases hw

end

end Carrier

end ReverseTunnel.Control

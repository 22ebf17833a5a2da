import ReverseTunnel.Proofs.Control.Service

/-!
A handler sees what a link has read.

What is proved (`dispatches_in_order`):
1. `Attended` says what a handler was called for so far: for the link's beginning, for a
   beginning of the messages that arrived, in order and each once, and for the link's end only
   after it has returned from everything else. A reader that was not told to stop has read all
   there was, so that then all of it is handled before the end (`Attended.all`).
2. Once the reader has stopped, the handler is called for all that was read and for the end, and
   returns. From the moment on at which nothing more is read, `pending` counts what is to be done
   until then.

What is assumed: nothing for the first. For the second, that the handler returns from every call,
that it is called when it can be, and that time goes on (`Patient`).

What is not said: what a handler does with a call, which is anything that it does between two
steps of its link.
-/

namespace ReverseTunnel.Control

open Wire (Message messagesIn)

namespace Service

variable {s s' : Service} {e : ServiceEvent} {fx : List ServiceEffect}

/-! ## What the handler was called for -/

/-- The calls of a handler that has come so far and has handled the given messages. -/
def Attendance.calls (handled : List Message) : Attendance → List Call
  | .coming => []
  | .present => .connected :: handled.map .message
  | .gone => .connected :: handled.map .message ++ [.disconnected]

/-- What a handler was called for, one call after another, is what has arrived, as far
as it was read. -/
structure Attended (s : Service) (begun returned : List Call) (heard : Bytes)
    (handled : List Message) : Prop where
  sound : s.link.Sound
  reads : s.link.Reads heard handled
  readOut : s.link.ReadOut
  oneByOne : begun = returned ++ s.calling.toList
  order : begun = Attendance.calls handled s.attendance
  /-- Nothing is handled, and the link is not flushed, before the handler has come. -/
  first : s.attendance = .coming → handled = [] ∧ s.link.stage = .open
  last : s.attendance = .gone → s.link.stage = .finished

variable {bs : Bytes} {calls backs : List Call} {handled : List Message}

theorem attended_start : ({} : Service).Attended [] [] [] [] :=
  ⟨Link.sound_start, Link.reads_start, Link.readOut_start, rfl, rfl, fun _ => ⟨rfl, rfl⟩, nofun⟩

/-- Before the handler has come, the link stays open. -/
theorem stage_of_coming {le : LinkEvent} {l : Link} {ls : List LinkEffect}
    (hm : s.link.Move le l ls) (hfree : s.holds le = false) (hcoming : s.attendance = .coming)
    (hopen : s.link.stage = .open) : l.stage = .open := by
  cases hm with
  | flushes => simp [holds, hcoming] at hfree
  | finishes since hstage => simp [hopen] at hstage
  | _ => exact hopen

/-- The link may change, if it stays open until the handler has come, and finished once it
is. -/
theorem Attended.of_link (h : s.Attended calls backs bs handled) {l : Link} {bs' : Bytes}
    (hsound : l.Sound) (hreads : l.Reads bs' handled) (hout : l.ReadOut)
    (hfirst : s.attendance = .coming → s.link.stage = .open → l.stage = .open)
    (hlast : s.link.stage = .finished → l.stage = .finished) :
    ({ s with link := l } : Service).Attended calls backs bs' handled where
  sound := hsound
  reads := hreads
  readOut := hout
  oneByOne := h.oneByOne
  order := h.order
  first hc := ⟨(h.first hc).1, hfirst hc (h.first hc).2⟩
  last hg := hlast (h.last hg)

theorem Attended.calls_eq (h : s.Attended calls backs bs handled) (hidle : s.calling = none) :
    calls = backs := by
  have hone := h.oneByOne
  rw [hidle, Option.toList_none, List.append_nil] at hone
  exact hone

theorem Attended.called (h : s.Attended calls backs bs handled) (hidle : s.calling = none)
    {call : Call} {attendance : Attendance} {l : Link} {handled' : List Message} (hsound : l.Sound)
    (hreads : l.Reads bs handled') (hout : l.ReadOut) (hcome : attendance ≠ .coming)
    (horder : calls ++ [call] = Attendance.calls handled' attendance)
    (hlast : attendance = .gone → l.stage = .finished) :
    (⟨l, attendance, some call⟩ : Service).Attended (calls ++ [call]) backs bs handled' where
  sound := hsound
  reads := hreads
  readOut := hout
  oneByOne := by
    rw [h.calls_eq hidle]
    rfl
  order := horder
  first hc := absurd hc hcome
  last := hlast

theorem Attended.move (h : s.Attended calls backs bs handled) (hm : Move s e s' fx) :
    ∃ handled', s'.Attended (calls ++ begun fx) (backs ++ returned fx) (bs ++ s.heardAt e)
      handled' := by
  cases hm with
  | rests _ hquiet =>
    rw [hquiet, List.append_nil]
    exact ⟨handled, by simpa [begun, returned] using h⟩
  | links le l ls hm hfree =>
    rw [begun_links, returned_links, List.append_nil, List.append_nil]
    exact ⟨handled, h.of_link (h.sound.move hm) (h.reads.move hm) (h.readOut.move hm)
      (stage_of_coming hm hfree) fun hf => Link.finished_move hf hm⟩
  | emits m ls =>
    have ha := Link.aside_emitted s.link m
    simp only [begun_emitted, begun_links, returned_emitted, returned_links, heardAt,
      List.append_nil]
    exact ⟨handled, h.of_link (h.sound.aside ha) (h.reads.aside ha) (h.readOut.aside ha)
      (fun _ => ha.stage.trans) ha.stage.trans⟩
  | connects hidle hcoming =>
    obtain ⟨hnothing, -⟩ := h.first hcoming
    have hnone : calls = [] := by
      rw [h.order, hcoming]
      rfl
    simp only [heardAt, returned, List.filterMap_cons, List.filterMap_nil, List.append_nil]
    refine ⟨handled, h.called hidle h.sound h.reads h.readOut (by decide) ?_ fun hg => by cases hg⟩
    rw [hnone, hnothing]
    rfl
  | hands m l hidle hpresent htake =>
    simp only [heardAt, returned, List.filterMap_cons, List.filterMap_nil, List.append_nil]
    refine ⟨handled ++ [m], h.called hidle (Link.sound_take? h.sound htake)
      (h.reads.take? htake) (h.readOut.take? htake) (by decide) ?_ fun hg => by cases hg⟩
    rw [h.order, hpresent]
    simp [Attendance.calls]
  | parts hidle hpresent hfinished =>
    simp only [heardAt, returned, List.filterMap_cons, List.filterMap_nil, List.append_nil]
    refine ⟨handled, h.called hidle h.sound h.reads h.readOut (by decide) ?_ fun _ => hfinished⟩
    rw [h.order, hpresent]
    rfl
  | returns c hcalling =>
    refine ⟨handled, ?_⟩
    simp only [heardAt, List.append_nil]
    exact
      { sound := h.sound
        reads := h.reads
        readOut := h.readOut
        oneByOne := by rw [h.oneByOne, hcalling]; simp [begun, returned]
        order := by rw [← h.order]; simp [begun]
        first := h.first
        last := h.last }

variable (c : Course step {})

theorem begun_append (fx fx' : List ServiceEffect) : begun (fx ++ fx') = begun fx ++ begun fx' :=
  List.filterMap_append

theorem returned_append (fx fx' : List ServiceEffect) :
    returned (fx ++ fx') = returned fx ++ returned fx' := List.filterMap_append

theorem attended (n : Nat) : ∃ handled, (c.state n).Attended (begun (c.effects n))
    (returned (c.effects n)) (heard c n) handled := by
  induction n with
  | zero => exact ⟨[], attended_start⟩
  | succ n ih =>
    obtain ⟨handled, h⟩ := ih
    obtain ⟨handled', h'⟩ := h.move (move (c.state n) (c.happens n))
    refine ⟨handled', ?_⟩
    rw [Course.effects, begun_append, returned_append]
    exact h'

theorem Attended.isPrefix (h : s.Attended calls backs bs handled) : handled <+: messagesIn bs :=
  (List.prefix_append handled s.link.inbox).trans (Wire.Carries.isPrefix h.reads)

/-- If the reader was not told to stop, all the messages that arrived were handled before
the end. -/
theorem Attended.all (h : s.Attended calls backs bs handled) (hgone : s.attendance = .gone)
    {why : ReadEnd} (hend : s.link.readEnd = some why) (hwhy : why ≠ .told) :
    handled = messagesIn bs := by
  have hdrained := (h.sound.drained (by simp [h.last hgone])).2
  have hall := h.reads.all (h.readOut why hend hwhy)
  rw [hdrained, List.append_nil] at hall
  exact hall

/-! ## The end comes -/

/-- How far a link is from finished, once everything read is handled. -/
def stagesLeft (l : Link) : Nat :=
  match l.stage with
  | .open => 3
  | .flushing _ => if l.writerStopped then 1 else 2
  | .finished => 0

/-- The calls that are still to begin, if nothing more is read. -/
def callsLeft (s : Service) : Nat :=
  s.link.inbox.length +
    match s.attendance with
    | .coming => 2
    | .present => 1
    | .gone => 0

/-- What is to be done until the handler has returned from its last call. -/
def pending (s : Service) : Nat :=
  2 * s.callsLeft + (if s.calling.isSome then 1 else 0) + stagesLeft s.link

/-- What a service awaits, once nothing more is read. -/
inductive Awaits (s : Service) : ServiceEvent → Prop
  | back (hbusy : s.calling.isSome = true) : Awaits s .back
  | call (hidle : s.calling = none)
      (hmore : s.attendance = .coming ∨ s.attendance = .present ∧
        (s.link.inbox ≠ [] ∨ s.link.stage = .finished)) : Awaits s .call
  | flush (now : Nat) (hidle : s.calling = none) (hpresent : s.attendance = .present)
      (hdrained : s.link.inbox = []) (hopen : s.link.stage = .open) :
      Awaits s (.link (.beginFlush now))
  | giveUp (now since : Nat) (hstage : s.link.stage = .flushing since)
      (hw : s.link.writerStopped = false) (hnow : since + flushLimit ≤ now) :
      Awaits s (.link (.giveUp now))
  | finish (since : Nat) (hstage : s.link.stage = .flushing since)
      (hw : s.link.writerStopped = true) : Awaits s (.link .finish)

/-- Two services are alike to what is awaited. -/
structure Alike (s s' : Service) : Prop where
  attendance : s'.attendance = s.attendance
  calling : s'.calling = s.calling
  inbox : s'.link.inbox = s.link.inbox
  stage : s'.link.stage = s.link.stage
  writer : ∀ since, s.link.stage = .flushing since →
    s'.link.writerStopped = s.link.writerStopped

theorem Alike.pending_eq (h : s.Alike s') : s'.pending = s.pending := by
  have hstages : stagesLeft s'.link = stagesLeft s.link := by
    unfold stagesLeft
    rw [h.stage]
    split
    · rfl
    · rename_i since hstage
      rw [h.writer since hstage]
    · rfl
  rw [pending, pending, callsLeft, callsLeft, h.attendance, h.calling, h.inbox, hstages]

theorem Alike.awaits (h : s.Alike s') (ha : s.Awaits e) : s'.Awaits e := by
  cases ha with
  | back hbusy => exact .back (h.calling ▸ hbusy)
  | call hidle hmore =>
    refine .call (h.calling.trans hidle) ?_
    rw [h.attendance, h.inbox, h.stage]
    exact hmore
  | flush now hidle hpresent hdrained hopen =>
    exact .flush now (h.calling.trans hidle) (h.attendance.trans hpresent)
      (h.inbox.trans hdrained) (h.stage.trans hopen)
  | giveUp now since hstage hw hnow =>
    exact .giveUp now since (h.stage.trans hstage) ((h.writer since hstage).trans hw) hnow
  | finish since hstage hw =>
    exact .finish since (h.stage.trans hstage) ((h.writer since hstage).trans hw)

theorem stagesLeft_flushing {l : Link} {since : Nat} (h : l.stage = .flushing since) :
    0 < stagesLeft l ∧ stagesLeft l < 3 := by
  simp only [stagesLeft, h]
  split <;> decide

theorem stagesLeft_of_stopped {l l' : Link} (hstage : l'.stage = l.stage)
    (hw : l'.writerStopped = true) :
    stagesLeft l' < stagesLeft l ∨ l'.stage = l.stage ∧
      ∀ since, l.stage = .flushing since → l'.writerStopped = l.writerStopped := by
  cases hbefore : l.writerStopped with
  | true => exact .inr ⟨hstage, fun _ _ => hw⟩
  | false =>
    cases hs : l.stage with
    | flushing since =>
      left
      simp [stagesLeft, hstage, hs, hw, hbefore]
    | _ => exact .inr ⟨hstage.trans hs, nofun⟩

theorem stagesLeft_move {l l' : Link} {le : LinkEvent} {ls : List LinkEffect}
    (hread : l.readEnd.isSome = true) (hm : l.Move le l' ls) :
    l'.inbox = l.inbox ∧ (stagesLeft l' < stagesLeft l ∨ l'.stage = l.stage ∧
      ∀ since, l.stage = .flushing since → l'.writerStopped = l.writerStopped) := by
  cases hm with
  | stops _ _ _ _ hr | reads _ _ _ hr => simp [hr] at hread
  | jams | fails | endsWriting | givesUp =>
    exact ⟨rfl, stagesLeft_of_stopped rfl rfl⟩
  | flushes now hopen =>
    refine ⟨rfl, .inl ?_⟩
    rw [show stagesLeft l = 3 by simp only [stagesLeft, hopen]]
    exact (stagesLeft_flushing rfl).2
  | finishes since hstage hw =>
    refine ⟨rfl, .inl ?_⟩
    simp [stagesLeft, hstage, hw]
  | rests | receives | ends | closes | begins | transmits => exact ⟨rfl, .inr ⟨rfl, fun _ _ => rfl⟩⟩

theorem pending_of_nearer {l : Link} (hinbox : l.inbox = s.link.inbox)
    (hlt : stagesLeft l < stagesLeft s.link) : ({ s with link := l } : Service).pending < s.pending := by
  simp only [pending, callsLeft, hinbox]
  omega

/-- Once nothing more is read, every step brings the end nearer or leaves what is awaited. -/
theorem pending_move (hread : s.link.readEnd.isSome = true) (hm : Move s e s' fx) :
    s'.pending < s.pending ∨ s.Alike s' := by
  cases hm with
  | rests => exact .inr ⟨rfl, rfl, rfl, rfl, fun _ _ => rfl⟩
  | links le l ls hm =>
    obtain ⟨hinbox, hlt | ⟨hstage, hwriter⟩⟩ := stagesLeft_move hread hm
    · exact .inl (pending_of_nearer hinbox hlt)
    · exact .inr ⟨rfl, rfl, hinbox, hstage, hwriter⟩
  | emits m =>
    have ha := Link.aside_emitted s.link m
    exact .inr ⟨rfl, rfl, ha.inbox, ha.stage, fun _ _ => Link.writerStopped_emitted s.link m⟩
  | connects hidle hcoming =>
    left
    simp [pending, callsLeft, hidle, hcoming]
    omega
  | hands m l hidle hpresent htake =>
    left
    obtain ⟨hinbox, hl⟩ := Link.take?_eq_some htake
    have hstages : stagesLeft l = stagesLeft s.link := by rw [hl]; rfl
    simp [pending, callsLeft, hidle, hpresent, hinbox, hstages]
    omega
  | parts hidle hpresent =>
    left
    simp [pending, callsLeft, hidle, hpresent]
    omega
  | returns c hcalling =>
    left
    simp [pending, callsLeft, hcalling]

theorem pending_called (hidle : s.calling = none) (hmore : s.attendance = .coming ∨
    s.attendance = .present ∧ (s.link.inbox ≠ [] ∨ s.link.stage = .finished)) :
    s.call.1.pending < s.pending := by
  rcases hmore with hcoming | ⟨hpresent, hnext⟩
  · simp [call, next?, hidle, hcoming, pending, callsLeft]
    omega
  · cases hinbox : s.link.inbox with
    | cons m rest =>
      simp [call, next?, Link.take?, hidle, hpresent, hinbox, pending, callsLeft, stagesLeft]
      omega
    | nil =>
      have hfinished := hnext.resolve_left (absurd hinbox)
      simp [call, next?, Link.take?, hidle, hpresent, hinbox, hfinished, pending, callsLeft]

theorem pending_awaited (hread : s.link.readEnd.isSome = true) (ha : s.Awaits e) :
    (s.step e).1.pending < s.pending := by
  cases ha with
  | back hbusy =>
    obtain ⟨c, hcalling⟩ := Option.isSome_iff_exists.mp hbusy
    simp [step, back, hcalling, pending, callsLeft]
  | call hidle hmore => exact pending_called hidle hmore
  | flush now hidle hpresent hdrained hopen =>
    have hfree : s.holds (.beginFlush now) = false := by simp [holds, hidle, hpresent]
    simp only [step, onLink, hfree, Link.step, Link.beginFlush]
    rw [if_neg Bool.false_ne_true, if_pos ⟨hopen, hread, hdrained⟩]
    have hbefore : stagesLeft s.link = 3 := by simp only [stagesLeft, hopen]
    exact pending_of_nearer rfl (hbefore ▸ (stagesLeft_flushing rfl).2)
  | giveUp now since hstage hw hnow =>
    simp only [step, onLink, holds, Link.step, Link.giveUp, hstage]
    rw [if_neg Bool.false_ne_true, if_pos ⟨hnow, hw⟩]
    exact pending_of_nearer rfl (by simp [stagesLeft, hstage, hw])
  | finish since hstage hw =>
    simp only [step, onLink, holds, Link.step, Link.finish, hstage]
    rw [if_neg Bool.false_ne_true, if_pos hw]
    exact pending_of_nearer rfl (stagesLeft_flushing hstage).1

/-- A handler is called when it can be and returns from every call, and time goes on for
its link: all of it again and again. -/
structure Patient : Prop where
  calls : ∀ n, ∃ k, n ≤ k ∧ c.happens k = .call
  returns : ∀ n, ∃ k, n ≤ k ∧ c.happens k = .back
  flushes : ∀ n, ∃ k, n ≤ k ∧ ∃ now, c.happens k = .link (.beginFlush now)
  givesUp : ∀ n time, ∃ k, n ≤ k ∧ ∃ now, time ≤ now ∧ c.happens k = .link (.giveUp now)
  finishes : ∀ n, ∃ k, n ≤ k ∧ c.happens k = .link .finish

variable {c}

/-- As long as the handler has not returned from its last call, something is awaited, and it
comes. -/
theorem Patient.comes (hc : Patient c) (n : Nat) (hpending : 0 < (c.state n).pending) :
    ∃ k, n ≤ k ∧ (c.state n).Awaits (c.happens k) := by
  obtain ⟨handled, h⟩ := attended c n
  cases hcalling : (c.state n).calling with
  | some call =>
    obtain ⟨k, hk, he⟩ := hc.returns n
    exact ⟨k, hk, he ▸ .back (by rw [hcalling]; rfl)⟩
  | none =>
    have hcall : ((c.state n).attendance = .coming ∨ (c.state n).attendance = .present ∧
        ((c.state n).link.inbox ≠ [] ∨ (c.state n).link.stage = .finished)) →
        ∃ k, n ≤ k ∧ (c.state n).Awaits (c.happens k) := by
      intro hmore
      obtain ⟨k, hk, he⟩ := hc.calls n
      exact ⟨k, hk, he ▸ .call hcalling hmore⟩
    cases hattendance : (c.state n).attendance with
    | coming => exact hcall (.inl hattendance)
    | gone =>
      -- the last call has returned
      have hfinished := h.last hattendance
      have hdrained := (h.sound.drained (by simp [hfinished])).2
      simp [pending, callsLeft, stagesLeft, hcalling, hattendance, hfinished, hdrained] at hpending
    | present =>
      by_cases hdrained : (c.state n).link.inbox = []
      · cases hstage : (c.state n).link.stage with
        | «open» =>
          obtain ⟨k, hk, now, he⟩ := hc.flushes n
          exact ⟨k, hk, he ▸ .flush now hcalling hattendance hdrained hstage⟩
        | flushing since =>
          cases hw : (c.state n).link.writerStopped with
          | true =>
            obtain ⟨k, hk, he⟩ := hc.finishes n
            exact ⟨k, hk, he ▸ .finish since hstage hw⟩
          | false =>
            obtain ⟨k, hk, now, hnow, he⟩ := hc.givesUp n (since + flushLimit)
            exact ⟨k, hk, he ▸ .giveUp now since hstage hw hnow⟩
        | finished => exact hcall (.inr ⟨hattendance, .inr hstage⟩)
      · exact hcall (.inr ⟨hattendance, .inl hdrained⟩)

theorem readEnd_move {why : ReadEnd} (hend : s.link.readEnd = some why) (hm : Move s e s' fx) :
    s'.link.readEnd = some why := by
  cases hm with
  | links le l ls hm => exact Link.readEnd_move hend hm
  | emits m => exact (Link.aside_emitted s.link m).readEnd.trans hend
  | hands m l _ _ htake =>
    obtain ⟨-, hl⟩ := Link.take?_eq_some htake
    rw [hl]
    exact hend
  | _ => exact hend

theorem Patient.parts (hc : Patient c) {n : Nat} {why : ReadEnd}
    (hend : (c.state n).link.readEnd = some why) :
    ∃ k, n ≤ k ∧ (c.state k).attendance = .gone ∧ (c.state k).calling = none := by
  have hended : ∀ k, n ≤ k → (c.state k).link.readEnd.isSome = true := by
    intro k hk
    rw [c.from_then_on (fun s e h => readEnd_move h (move s e)) hk hend]
    rfl
  obtain ⟨k, hk, hnothing⟩ := c.runs_down pending Awaits (fun k _ => hc.comes k) (by
    intro k hk
    by_cases hawaited : (c.state k).Awaits (c.happens k)
    · exact .inl (pending_awaited (hended k hk) hawaited)
    · exact (pending_move (hended k hk) (move _ _)).imp_right fun halike =>
        ⟨halike.pending_eq, hawaited, fun _ => halike.awaits⟩)
  refine ⟨k, hk, ?_⟩
  unfold pending callsLeft at hnothing
  constructor
  · cases hattendance : (c.state k).attendance with
    | gone => rfl
    | _ =>
      rw [hattendance] at hnothing
      dsimp only at hnothing
      omega
  · cases hcalling : (c.state k).calling with
    | none => rfl
    | some call =>
      rw [hcalling, Option.isSome_some, if_pos rfl] at hnothing
      omega

/-! ## The whole course -/

/-- A handler is called for one thing after another: first for the beginning of its link,
then for a beginning of the messages that arrived up to the first violation, in order and
each once, and last, at most once, for its end. If the reader was not told to stop, all of
these messages were handled by then. And if the handler is patient, it returns from its
last call some time after the reader has stopped. -/
theorem dispatches_in_order (c : Course step {}) :
    (∀ n, begun (c.effects n) = returned (c.effects n) ++ (c.state n).calling.toList ∧
      ∃ handled, handled <+: messagesIn (heard c n) ∧
        (begun (c.effects n) = [] ∨
          begun (c.effects n) = .connected :: handled.map .message ∨
          begun (c.effects n) = .connected :: handled.map .message ++ [.disconnected] ∧
            ∀ why, (c.state n).link.readEnd = some why → why ≠ .told →
              handled = messagesIn (heard c n))) ∧
    (Patient c → ∀ n why, (c.state n).link.readEnd = some why →
      ∃ k handled, n ≤ k ∧ handled <+: messagesIn (heard c k) ∧
        (why ≠ .told → handled = messagesIn (heard c k)) ∧
        returned (c.effects k) = .connected :: handled.map .message ++ [.disconnected]) := by
  constructor
  · intro n
    obtain ⟨handled, h⟩ := attended c n
    refine ⟨h.oneByOne, handled, h.isPrefix, ?_⟩
    have horder := h.order
    cases hattendance : (c.state n).attendance with
    | coming => exact .inl (by rw [horder, hattendance]; rfl)
    | present => exact .inr (.inl (by rw [horder, hattendance]; rfl))
    | gone =>
      refine .inr (.inr ⟨by rw [horder, hattendance]; rfl, ?_⟩)
      intro why hend hwhy
      exact h.all hattendance hend hwhy
  · intro hc n why hend
    obtain ⟨k, hk, hgone, hidle⟩ := hc.parts hend
    obtain ⟨handled, h⟩ := attended c k
    have hend' : (c.state k).link.readEnd = some why :=
      c.from_then_on (fun s e h => readEnd_move h (move s e)) hk hend
    have hreturned : returned (c.effects k) = Attendance.calls handled .gone := by
      have hone := h.oneByOne
      rw [hidle, Option.toList_none, List.append_nil] at hone
      rw [← hone, h.order, hgone]
    exact ⟨k, handled, hk, h.isPrefix, h.all hgone hend', hreturned⟩

/-- What a patient handler and the time do in turn. -/
def turn (now : Nat) : Nat → ServiceEvent
  | 0 => .call
  | 1 => .back
  | 2 => .link (.beginFlush now)
  | 3 => .link (.giveUp now)
  | _ => .link .finish

/-- The given events happen, and then a handler is called and returns, and time goes on. -/
def thenPatient (events : List ServiceEvent) : Course step {} := .thenInTurn events 5 turn

theorem patient_thenPatient (events : List ServiceEvent) : Patient (thenPatient events) where
  calls n := Course.comes_in_turn rfl n (show 0 < 5 by decide)
  returns n := Course.comes_in_turn rfl n (show 1 < 5 by decide)
  flushes n := by
    obtain ⟨k, hk, he⟩ := Course.comes_in_turn rfl n (show 2 < 5 by decide)
    exact ⟨k, hk, k, he⟩
  givesUp n time := by
    obtain ⟨k, hk, he⟩ := Course.comes_in_turn rfl (n + time) (show 3 < 5 by decide)
    exact ⟨k, by omega, k, by omega, he⟩
  finishes n := Course.comes_in_turn rfl n (show 4 < 5 by decide)

/-- A heartbeat arrives, and then what is no frame. -/
def strayBytes : List ServiceEvent :=
  [.link (.receive ((Message.heartbeat 7).frame.bytes ++ [255, 255, 255, 255])), .link .read,
    .link .read]

theorem heard_strayBytes {n : Nat} (hn : 3 ≤ n) :
    messagesIn (heard (thenPatient strayBytes) n) = [.heartbeat 7] := by
  have hheard : heard (thenPatient strayBytes) n =
      (Message.heartbeat 7).frame.bytes ++ [255, 255, 255, 255] := by
    -- nothing arrives after the first event
    induction hn with
    | refl => rfl
    | @step n hle ih =>
      have hturn : (thenPatient strayBytes).happens n = turn n ((n - 3) % 5) :=
        Course.turn_of_le rfl hle
      have hquiet : ((thenPatient strayBytes).state n).heardAt (turn n ((n - 3) % 5)) = [] := by
        unfold turn
        split <;> rfl
      rw [heard, hturn, hquiet, List.append_nil, ih]
  have hfits : Wire.Frame.Fits (Message.heartbeat 7).body := by decide
  have hstray : Wire.Frame.decode [255, 255, 255, 255] = .error (.tooLarge 4294967295) := rfl
  rw [hheard, messagesIn, Wire.draw_of_some (Wire.Frame.decode_bytes hfits _),
    Wire.draw_of_error hstray]
  rfl

theorem dispatches_in_order_strayBytes :
    Patient (thenPatient strayBytes) ∧
      ((thenPatient strayBytes).state 3).link.readEnd = some .violation ∧
      ∃ k, returned ((thenPatient strayBytes).effects k) =
        [.connected, .message (.heartbeat 7), .disconnected] := by
  have hpatient := patient_thenPatient strayBytes
  have hend : ((thenPatient strayBytes).state 3).link.readEnd = some .violation := by decide +kernel
  refine ⟨hpatient, hend, ?_⟩
  obtain ⟨k, handled, hk, -, hall, hreturned⟩ :=
    (dispatches_in_order (thenPatient strayBytes)).2 hpatient 3 .violation hend
  refine ⟨k, ?_⟩
  rw [hreturned, hall (by decide), heard_strayBytes hk]
  rfl

end Service

end ReverseTunnel.Control

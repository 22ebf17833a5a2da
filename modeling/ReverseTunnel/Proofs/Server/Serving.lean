import ReverseTunnel.Proofs.Control.Running
import ReverseTunnel.Proofs.Server.Announcing
import ReverseTunnel.Proofs.Server.Replies

/-!
A server serves each of its connections.

What is said about a link, its record and what was emitted on it holds at every moment of
every course of a server, if it holds of a new link and is kept by what happens on the
link itself, by the handling of a message and by what is announced (`Lasting`). So every
connection is at every moment at a moment of a course of a `Service`, and what holds of
all of these holds of all connections.
-/

namespace ReverseTunnel.Server

open Control
open Proxy (Table announced)
open Session (ConnId IdSource)
open Wire (Message Frame bytesOf messagesIn)

variable {a : Seal.Aead} {o : Options} {r : Run} {e : Event} {x : Run × List Effect} {c : ConnId}
  {l l' : Link} {k : Record} {emitted : List Message} {P : Link → Record → List Message → Prop}

/-! ## What is emitted -/

/-- The messages that actions emit. -/
def emittedBy (xs : List Action) : List Message :=
  xs.filterMap fun | .emit m => some m | _ => none

namespace Run

/-- The messages that are emitted on a connection with an event: what answers the message
that is handled, or what its proxy announces. -/
def emittedOn (a : Seal.Aead) (r : Run) (c : ConnId) (e : Event) : List Message :=
  match r.link? c with
  | none => []
  | some l =>
    match e with
    | .handle d bind =>
      if d = c then
        match l.take? with
        | none => []
        | some (m, _) => emittedBy (react r.options a bind r.now r.registry c m).2
      else []
    | e => announcements (r.announcedOn c e)

theorem link?_ofProxy? (a : Seal.Aead) (r : Run) (he : e.ofProxy? = some c) :
    (r.step a e).1.link? c =
      (r.link? c).map (·.emitAll (announcements (r.announcedOn c e))) := by
  rcases works_or_still a r he with ⟨p, te, hp, ho, hworks⟩ | ⟨hstill, hnone⟩
  · rw [hworks.own]
    cases ho with
    | table te => rw [announcedOn_table hp]
    | sweep =>
      rw [show announced (p.table.step (r.around c) (.evict _)).effects = [] from
        Proxy.announced_of_none (Table.silent_evict _ _ _).quiet]
      rfl
    | wind =>
      rw [show announced (p.table.step (r.around c) .clear).effects = [] from
        Proxy.announced_of_none (Table.silent_clear _ _).quiet]
      rfl
  · rw [hstill.own, hnone]
    exact Option.map_id_apply.symm

theorem emittedOn_of_absent (h : r.link? c = none) : r.emittedOn a c e = [] := by
  simp only [emittedOn, h]

theorem emittedOn_handle {bind : Binder} {m : Message} (hl : r.link? c = some l)
    (ht : l.take? = some (m, l')) : r.emittedOn a c (.handle c bind) =
      emittedBy (react r.options a bind r.now r.registry c m).2 := by
  simp [emittedOn, hl, ht]

theorem emittedOn_of_ofProxy? (hl : r.link? c = some l) (he : e.ofProxy? = some c) :
    r.emittedOn a c e = announcements (r.announcedOn c e) := by
  cases e with
  | table _ _ | sweep _ | wind _ => simp only [emittedOn, hl]
  | _ => cases he

theorem announcedOn_elsewhere (he : e.ofProxy? ≠ some c) : r.announcedOn c e = [] := by
  cases e with
  | table d te => exact if_neg fun hd => he (congrArg some hd)
  | _ => rfl

theorem emittedOn_of_none (he : e.ofProxy? ≠ some c)
    (hhandled : r.handledOn c e = []) : r.emittedOn a c e = [] := by
  cases hl : r.link? c with
  | none => exact emittedOn_of_absent hl
  | some l =>
    cases e with
    | handle d bind =>
      by_cases hd : d = c
      · subst hd
        have hnone : l.take? = none := by simpa [handledOn, hl] using hhandled
        simp [emittedOn, hl, hnone]
      · simp [emittedOn, hl, hd]
    | _ => simp only [emittedOn, hl, announcedOn_elsewhere he, announcements, List.map_nil]

end Run

theorem sentOn_of_ofProxy? {d : ConnId} (he : e.ofProxy? = some d) (ht : Run.Turn a r e x) :
    sentOn c x.2 = [] := by
  cases ht with
  | connects _ | moves _ _ _ _ _ _ | handles _ _ _ _ _ _ _ _ _ => cases he
  | rests _ _ _ hc => exact sentOn_of_quiet (hc c).quiet
  | announces _ _ _ _ _ hc => exact sentOn_of_quiet hc.quiet

/-- The messages that were emitted on a connection before a moment. -/
def emittedBefore {ids : IdSource} (course : Course (Run.step a) (Run.start o ids)) (c : ConnId) :
    Nat → List Message
  | 0 => []
  | n + 1 => emittedBefore course c n ++ (course.state n).emittedOn a c (course.happens n)

/-! ## What lasts -/

/-- What all that can happen on a connection keeps of its link, its record and what was
emitted on it. -/
structure Lasting (P : Link → Record → List Message → Prop) : Prop where
  start : P {} {} []
  moves : ∀ l k emitted y, l.Sound → P l k emitted →
    P (l.step y).1 ⟨k.heard ++ l.heardAt y, k.handled, k.sent ++ Link.sentBytes (l.step y).2⟩ emitted
  handles : ∀ l l' m k emitted xs, l.Sound → l.take? = some (m, l') → P l k emitted →
    P (Action.allOnLink l' xs) { k with handled := k.handled ++ [m] } (emitted ++ emittedBy xs)
  emits : ∀ l k emitted ms, P l k emitted → P (l.emitAll ms) k (emitted ++ ms)

theorem Lasting.on (h : Lasting P) (horderly : r.Orderly) (ht : Run.Turn a r e x)
    (habout : e.about? = some c) (he : e.ofProxy? ≠ some c)
    (hk : ∀ l, r.link? c = some l → P l k emitted) (hl' : x.1.link? c = some l') :
    P l' (k.after r c e x.2) (emitted ++ r.emittedOn a c e) := by
  cases ht with
  | connects peer => cases habout
  | rests _ _ hidle hc =>
    obtain ⟨hheard, hhandled⟩ := heardOn_of_idle (c := c) hidle
    rw [Record.after_self hheard hhandled (sentOn_of_quiet (hc c).quiet),
      Run.emittedOn_of_none he hhandled, List.append_nil]
    rw [(hc c).own, Option.map_id_apply] at hl'
    exact hk l' hl'
  | moves d y l r' hl hc =>
    cases habout
    rw [hc.own, hl] at hl'
    cases hl'
    have hheard : r.heardOn c (.link c y) = l.heardAt y := by simp [Run.heardOn, hl]
    have hhandled : r.handledOn c (.link c y) = [] := rfl
    have hemitted : r.emittedOn a c (.link c y) = [] := Run.emittedOn_of_none he hhandled
    rw [Record.after, hheard, hhandled, hemitted, sentOn_map_self, List.append_nil, List.append_nil]
    exact h.moves l k emitted y (horderly.links c l hl) (hk l hl)
  | handles d bind l taken m _ hl htake hc =>
    cases habout
    rw [hc.own, hl] at hl'
    cases hl'
    have hheard : r.heardOn c (.handle c bind) = [] := rfl
    have hhandled : r.handledOn c (.handle c bind) = [m] := by simp [Run.handledOn, hl, htake]
    rw [Record.after, hheard, hhandled, Run.emittedOn_handle hl htake, sentOn_of_quiet hc.quiet,
      List.append_nil, List.append_nil]
    exact h.handles l taken m k emitted _ (horderly.links c l hl) htake (hk l hl)
  | announces _ d sessions _ hd hc =>
    rw [Event.about?_of_ofProxy? hd] at habout
    exact absurd (habout ▸ hd) he

theorem Lasting.ofProxy (h : Lasting P) (he : e.ofProxy? = some c)
    (hk : ∀ l, r.link? c = some l → P l k emitted) (hl' : (r.step a e).1.link? c = some l') :
    P l' (k.after r c e (r.step a e).2) (emitted ++ r.emittedOn a c e) := by
  obtain ⟨hheard, hhandled⟩ := heardOn_of_ofProxy? (r := r) (c := c) he
  rw [Run.link?_ofProxy? a r he] at hl'
  obtain ⟨l, hl, rfl⟩ := Option.map_eq_some_iff.mp hl'
  rw [Record.after_self hheard hhandled (sentOn_of_ofProxy? he (Run.turn a r e)),
    Run.emittedOn_of_ofProxy? hl he]
  exact h.emits l k emitted _ (hk l hl)

section Moments

variable {ids : IdSource} (course : Course (Run.step a) (Run.start o ids))

theorem emittedBefore_of_absent (c : ConnId) : ∀ n, (course.state n).link? c = none →
    emittedBefore course c n = [] := by
  intro n
  induction n with
  | zero => exact fun _ => rfl
  | succ n ih =>
    intro hafter
    have hbefore : (course.state n).link? c = none := by
      cases hl : (course.state n).link? c with
      | none => rfl
      | some l =>
        obtain ⟨l', hl'⟩ := (Run.turn a (course.state n) (course.happens n)).present hl
        cases hafter.symm.trans hl'
    rw [emittedBefore, ih hbefore, Run.emittedOn_of_absent hbefore, List.append_nil]

/-- What lasts holds of every connection at every moment. -/
theorem Lasting.holds (h : Lasting P) (c : ConnId) : ∀ n l, (course.state n).link? c = some l →
    P l (record course c n) (emittedBefore course c n) := by
  intro n
  induction n with
  | zero => nofun
  | succ n ih =>
    intro l' hl'
    have ht := Run.turn a (course.state n) (course.happens n)
    by_cases habout : (course.happens n).about? = some c
    · by_cases he : (course.happens n).ofProxy? = some c
      · exact h.ofProxy he ih hl'
      · exact h.on (Run.orderly course n) ht habout he ih hl'
    · obtain ⟨-, hhandled⟩ := heardOn_of_about? (r := course.state n) habout
      have hemitted : emittedBefore course c (n + 1) = emittedBefore course c n := by
        rw [emittedBefore, Run.emittedOn_of_none (fun he => habout (Event.about?_of_ofProxy? he))
          hhandled, List.append_nil]
      obtain ⟨hrecord, hsame | ⟨hnone, hnew⟩⟩ :=
        link?_elsewhere (k := record course c n) ht habout
      · rw [hemitted]
        change P l' ((record course c n).after _ c _ _) _
        rw [Course.effectsAt, hrecord]
        exact ih l' (hsame ▸ hl')
      · rw [hemitted, emittedBefore_of_absent course c n hnone]
        change P l' ((record course c n).after _ c _ _) _
        rw [Course.effectsAt, hrecord, (kept course c n).absent hnone, hnew l' hl']
        exact h.start

end Moments

/-! ## As a service does -/

theorem shows_allOnLink {m : Message} {handled : List Message} {bs wire : Bytes}
    (xs : List Action) : ∀ (l : Link) (emitted : List Message),
    (⟨l, .present, some (.message m)⟩ : Service).Shows handled emitted bs wire →
    (⟨Action.allOnLink l xs, .present, some (.message m)⟩ : Service).Shows handled
      (emitted ++ emittedBy xs) bs wire := by
  induction xs with
  | nil =>
    intro l emitted h
    rw [emittedBy, List.filterMap_nil, List.append_nil]
    exact h
  | cons x rest ih =>
    intro l emitted h
    cases x with
    | emit k =>
      have hboth := ih _ _ (h.emit k)
      rw [List.append_assoc] at hboth
      exact hboth
    | close => exact ih _ _ h.close
    | count _ | listen _ => exact ih _ _ h

theorem lasting_serves :
    Lasting fun l k emitted => Service.Serves l k.handled emitted k.heard k.sent where
  start := Service.serves_start []
  moves l k emitted y hsound h := h.onLink hsound y
  handles l l' m k emitted xs hsound htake h := by
    have hopen : (Action.allOnLink l' xs).stage ≠ .finished := by
      obtain ⟨-, hl'⟩ := Link.take?_eq_some htake
      rw [(Action.aside_allOnLink xs l').stage, hl', Link.stage_of_take? hsound htake]
      decide
    exact (shows_allOnLink xs l' emitted (h.hands hsound htake)).serves hopen
  emits l k emitted ms h := h.emitAll ms

section Moments

variable {ids : IdSource} (course : Course (Run.step a) (Run.start o ids)) (c : ConnId) (n : Nat)

/-- Every connection of a server, at every moment, is at a moment of the course of a
service: its link is that of the service, whose handler was called for what was handled,
the same was emitted, and the same has arrived and was put on the transport. -/
theorem serves_each (hl : (course.state n).link? c = some l) :
    ∃ (service : Course Service.step {}) (k : Nat), service.state k = Service.atRest l ∧
      Service.begun (service.effects k) =
        Service.Attendance.calls (record course c n).handled (Service.atRest l).attendance ∧
      (Service.emits (service.effects k)).map Prod.fst = emittedBefore course c n ∧
      Service.heard service k = (record course c n).heard ∧
      Service.sent (service.effects k) = (record course c n).sent :=
  lasting_serves.holds course c n l hl

/-- On every connection of a server the messages that were handled are a beginning of those
that arrived, and all of them once it has finished, if its reader was not told to stop. -/
theorem handles_in_order (hl : (course.state n).link? c = some l) :
    (record course c n).handled <+: messagesIn (record course c n).heard ∧
      (l.stage = .finished → ∀ why, l.readEnd = some why → why ≠ .told →
        (record course c n).handled = messagesIn (record course c n).heard) :=
  (lasting_serves.holds course c n l hl).handles_in_order

/-- On every connection of a server what was put on the transport is a beginning of what was
emitted: answers and announcements, in the order in which they were. -/
theorem sends_in_order (hl : (course.state n).link? c = some l) : (record course c n).sent <+:
    bytesOf ((emittedBefore course c n).takeWhile fun m => Frame.Fits m.body) :=
  (lasting_serves.holds course c n l hl).sends_in_order

theorem closed_of_stopped (hl : (course.state n).link? c = some l)
    (hw : l.writerStopped = true) : l.closed = true := by
  obtain ⟨ms, taken, houtgoing, -⟩ := (lasting_serves.holds course c n l hl).outgoing
  exact houtgoing.shut hw

theorem writes_of_open (hl : (course.state n).link? c = some l) (hopen : l.closed = false) :
    ∃ begun, l.Writes begun (emittedBefore course c n) (record course c n).sent :=
  ((lasting_serves.holds course c n l hl).writes_of_open hopen).2

end Moments

end ReverseTunnel.Server

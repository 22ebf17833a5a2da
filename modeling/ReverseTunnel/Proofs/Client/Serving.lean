import ReverseTunnel.Client.Serving
import ReverseTunnel.Proofs.Control.Running

/-!
A client serves its connection.

Whatever a client does on its connection, apart from what happens on the link itself, is to
emit messages (`Emits`): what it says first, what it answers, its heartbeats and what its
attempts to dial back report. So its connection is at every moment at a moment of a course
of a `Service`, and what holds of all of these holds of it.
-/

namespace ReverseTunnel.Client

open Control
open Wire (Message Frame bytesOf messagesIn)

/-- What an effect does on the link. -/
def ServingEffect.onLink? : ServingEffect → Option LinkEffect
  | .link e => some e
  | _ => none

/-- The bytes that effects put on the transport. -/
def sentBytes (fx : List ServingEffect) : Bytes :=
  Link.sentBytes (fx.filterMap ServingEffect.onLink?)

theorem sentBytes_append (fx fx' : List ServingEffect) :
    sentBytes (fx ++ fx') = sentBytes fx ++ sentBytes fx' := by
  rw [sentBytes, List.filterMap_append, Link.sentBytes_append]
  rfl

theorem sentBytes_links (ls : List LinkEffect) : sentBytes (ls.map .link) = Link.sentBytes ls := by
  rw [sentBytes, List.filterMap_map]
  exact congrArg Link.sentBytes List.filterMap_some

/-- The messages that actions emit. -/
def emittedBy (xs : List SessionAction) : List Message :=
  xs.filterMap fun | .emit m => some m | _ => none

/-- The messages by which an attempt to dial back reports. -/
def reportedBy (session : UInt32) (es : List DialEffect) : List Message :=
  es.filterMap fun | .report success => some (.openDataConnAck session success) | _ => none

namespace Serving

variable {o : Options} {a : Seal.Aead} {now : Nat} {s s' s'' : Serving}
  {fx fx' : List ServingEffect} {ms ms' : List Message} {r : Serving × List ServingEffect}

/-! ## What a client emits -/

/-- These messages are emitted on the link, and nothing is put on the transport. -/
structure Emits (s : Serving) (ms : List Message) (r : Serving × List ServingEffect) : Prop where
  link : r.1.link = s.link.emitAll ms
  quiet : sentBytes r.2 = []

theorem emits_nothing (h : s'.link = s.link) : s.Emits [] (s', []) := ⟨h, rfl⟩

theorem Emits.trans (h : s.Emits ms (s', fx)) (h' : s'.Emits ms' (s'', fx')) :
    s.Emits (ms ++ ms') (s'', fx ++ fx') where
  link := by rw [h'.link, h.link, Link.emitAll_append]
  quiet := by rw [sentBytes_append, h.quiet, h'.quiet, List.append_nil]

theorem emits_emit (s : Serving) (m : Message) : s.Emits [m] (s.emit m) := by
  obtain ⟨counts, hcounts⟩ := Link.emit_counts s.link m
  refine ⟨rfl, ?_⟩
  show sentBytes ((s.link.emit m).2.2.map .link) = []
  rw [hcounts, sentBytes_links, Link.sentBytes_counts]

theorem emits_perform (o : Options) (now : Nat) (s : Serving) (x : SessionAction) :
    s.Emits (emittedBy [x]) (s.perform o now x) := by
  cases x with
  | emit m => exact emits_emit s m
  | publish _ | beatAfter _ | dialBack _ _ _ => exact ⟨rfl, rfl⟩

theorem emits_performAll (o : Options) (now : Nat) (xs : List SessionAction) : ∀ s : Serving,
    s.Emits (emittedBy xs) (performAll o now s xs) := by
  induction xs with
  | nil => exact fun s => emits_nothing rfl
  | cons x rest ih =>
    intro s
    rw [emittedBy, ← List.singleton_append, List.filterMap_append]
    exact (emits_perform o now s x).trans (ih _)

theorem emits_dialEffects (attempt : Nat) (session : UInt32) (es : List DialEffect) :
    ∀ s : Serving, s.Emits (reportedBy session es) (dialEffects attempt session s es) := by
  induction es with
  | nil => exact fun s => emits_nothing rfl
  | cons e rest ih =>
    intro s
    have hfirst : s.Emits (reportedBy session [e]) (s.dialEffect attempt session e) := by
      cases e with
      | report success => exact emits_emit s _
      | dial _ | relay _ | drop _ => exact ⟨rfl, rfl⟩
    rw [reportedBy, ← List.singleton_append, List.filterMap_append]
    exact hfirst.trans (ih _)

/-! ## What happens with an event -/

/-- What arrives with an event. -/
def heardAt (s : Serving) : ServingEvent → Bytes
  | .link e => s.link.heardAt e
  | _ => []

/-- The message that is handled with an event. -/
def handledAt (s : Serving) : ServingEvent → List Message
  | .handle _ => (s.link.take?.map (·.1)).toList
  | _ => []

/-- The messages that are emitted with an event. -/
def emittedAt (o : Options) (a : Seal.Aead) (now : Nat) (s : Serving) : ServingEvent → List Message
  | .link _ => []
  | .handle nonce =>
    match s.link.take? with
    | none => []
    | some (m, _) => emittedBy (s.session.handle o a nonce m).2
  | .beat =>
    match s.beats.find? (· ≤ now) with
    | none => []
    | some _ => if s.link.closed then [] else [.heartbeat (UInt64.ofNat now)]
  | .dial attempt e =>
    match s.dials[attempt]? with
    | none => []
    | some d => reportedBy (d.step now e).1.session (d.step now e).2

theorem emits_beat (o : Options) (a : Seal.Aead) (now : Nat) (s : Serving) :
    s.Emits (s.emittedAt o a now .beat) (s.beat now) := by
  simp only [emittedAt, beat]
  cases s.beats.find? (· ≤ now) with
  | none => exact emits_nothing rfl
  | some due =>
    dsimp only
    cases s.link.closed with
    | true => exact emits_nothing rfl
    | false =>
      have h := emits_emit { s with beats := s.beats.erase due } (.heartbeat (UInt64.ofNat now))
      exact ⟨h.link, h.quiet⟩

theorem emits_dial (o : Options) (a : Seal.Aead) (now attempt : Nat) (e : DialEvent) (s : Serving) :
    s.Emits (s.emittedAt o a now (.dial attempt e)) (s.dial now attempt e) := by
  simp only [emittedAt, dial]
  cases s.dials[attempt]? with
  | none => exact emits_nothing rfl
  | some d =>
    have h := emits_dialEffects attempt (d.step now e).1.session (d.step now e).2
      { s with dials := s.dials.set attempt (d.step now e).1 }
    exact ⟨h.link, h.quiet⟩

/-- What a step does to the link: something happens on it, or the next message is taken from it
or none, and messages are emitted. -/
inductive LinkTurn (o : Options) (a : Seal.Aead) (now : Nat) (s : Serving) :
    ServingEvent → Link → Prop
  | moves (e : LinkEvent) : LinkTurn o a now s (.link e) (s.link.step e).1
  | takes (nonce : Bytes) (m : Message) (l : Link) (ht : s.link.take? = some (m, l)) :
      LinkTurn o a now s (.handle nonce) (l.emitAll (s.emittedAt o a now (.handle nonce)))
  | emits (e : ServingEvent) (hnone : s.handledAt e = []) :
      LinkTurn o a now s e (s.link.emitAll (s.emittedAt o a now e))

theorem link_turn (o : Options) (a : Seal.Aead) (now : Nat) (s : Serving) (e : ServingEvent) :
    s.LinkTurn o a now e (s.step o a now e).1.link := by
  cases e with
  | link y => exact .moves y
  | handle nonce =>
    cases ht : s.link.take? with
    | none =>
      have hrests : (s.step o a now (.handle nonce)).1.link =
          s.link.emitAll (s.emittedAt o a now (.handle nonce)) := by
        simp only [step, handle, emittedAt, ht, Link.emitAll]
      rw [hrests]
      exact .emits _ (by simp only [handledAt, ht, Option.map_none, Option.toList_none])
    | some taken =>
      obtain ⟨m, l⟩ := taken
      have htakes : (s.step o a now (.handle nonce)).1.link =
          l.emitAll (s.emittedAt o a now (.handle nonce)) := by
        simp only [step, handle, emittedAt, ht]
        exact (emits_performAll o now (s.session.handle o a nonce m).2 _).link
      rw [htakes]
      exact .takes nonce m l ht
  | beat =>
    rw [step, (emits_beat o a now s).link]
    exact .emits _ rfl
  | dial attempt y =>
    rw [step, (emits_dial o a now attempt y s).link]
    exact .emits _ rfl

/-! ## As a service does -/

variable {handled emitted : List Message} {bs wire : Bytes}

theorem Emits.serves (he : s.Emits ms r) (hsound : s.link.Sound)
    (h : Service.Serves s.link handled emitted bs wire) :
    r.1.link.Sound ∧ Service.Serves r.1.link handled (emitted ++ ms) bs (wire ++ sentBytes r.2) := by
  rw [he.quiet, List.append_nil, he.link]
  exact ⟨hsound.aside (Link.aside_emitAll ms s.link), h.emitAll ms⟩

theorem serves_handle (nonce : Bytes) (hsound : s.link.Sound)
    (h : Service.Serves s.link handled emitted bs wire) :
    (s.handle o a now nonce).1.link.Sound ∧
      Service.Serves (s.handle o a now nonce).1.link (handled ++ s.handledAt (.handle nonce))
        (emitted ++ s.emittedAt o a now (.handle nonce)) bs
        (wire ++ sentBytes (s.handle o a now nonce).2) := by
  simp only [handle, handledAt, emittedAt]
  cases ht : s.link.take? with
  | none =>
    rw [Option.map_none, Option.toList_none, List.append_nil]
    exact (emits_nothing rfl).serves hsound h
  | some taken =>
    obtain ⟨m, l⟩ := taken
    have hemits := emits_performAll o now (s.session.handle o a nonce m).2
      { s with link := l, session := (s.session.handle o a nonce m).1 }
    have haside := Link.aside_emitAll (emittedBy (s.session.handle o a nonce m).2) l
    have hopen : (l.emitAll (emittedBy (s.session.handle o a nonce m).2)).stage ≠ .finished := by
      obtain ⟨-, hl⟩ := Link.take?_eq_some ht
      rw [haside.stage, hl, Link.stage_of_take? hsound ht]
      decide
    dsimp only
    rw [hemits.quiet, List.append_nil, hemits.link]
    exact ⟨(Link.sound_take? hsound ht).aside haside,
      (Service.Shows.emitAll _ _ _ (h.hands hsound ht)).serves hopen⟩

theorem serves_step (e : ServingEvent) (hsound : s.link.Sound)
    (h : Service.Serves s.link handled emitted bs wire) :
    (s.step o a now e).1.link.Sound ∧
      Service.Serves (s.step o a now e).1.link (handled ++ s.handledAt e)
        (emitted ++ s.emittedAt o a now e) (bs ++ s.heardAt e)
        (wire ++ sentBytes (s.step o a now e).2) := by
  cases e with
  | link e =>
    have hhandled : s.handledAt (.link e) = [] := rfl
    have hemitted : s.emittedAt o a now (.link e) = [] := rfl
    rw [step, sentBytes_links, hhandled, hemitted, List.append_nil, List.append_nil]
    exact ⟨hsound.move (Link.move s.link e), h.onLink hsound e⟩
  | handle nonce =>
    have hheard : s.heardAt (.handle nonce) = [] := rfl
    rw [hheard, List.append_nil]
    exact serves_handle nonce hsound h
  | beat =>
    have hheard : s.heardAt .beat = [] := rfl
    have hhandled : s.handledAt .beat = [] := rfl
    rw [hheard, hhandled, List.append_nil, List.append_nil]
    exact (emits_beat o a now s).serves hsound h
  | dial attempt e =>
    have hheard : s.heardAt (.dial attempt e) = [] := rfl
    have hhandled : s.handledAt (.dial attempt e) = [] := rfl
    rw [hheard, hhandled, List.append_nil, List.append_nil]
    exact (emits_dial o a now attempt e s).serves hsound h

/-! ## At every moment -/

/-- Something happens on a connection at a time. -/
def stepAt (o : Options) (a : Seal.Aead) (s : Serving) (e : Nat × ServingEvent) :
    Serving × List ServingEffect := s.step o a e.1 e.2

section Moments

variable (course : Course (stepAt o a) (start o now).1)

/-- What has arrived before a moment. -/
def heard : Nat → Bytes
  | 0 => []
  | n + 1 => heard n ++ (course.state n).heardAt (course.happens n).2

/-- The messages that were handled before a moment. -/
def handledBefore : Nat → List Message
  | 0 => []
  | n + 1 => handledBefore n ++ (course.state n).handledAt (course.happens n).2

/-- The messages that were emitted before a moment, the first of them when the connection was
made. -/
def emittedBefore : Nat → List Message
  | 0 => emittedBy (Session.greeting o)
  | n + 1 =>
    emittedBefore n ++ (course.state n).emittedAt o a (course.happens n).1 (course.happens n).2

theorem serves_start (o : Options) (now : Nat) :
    (start o now).1.link.Sound ∧
      Service.Serves (start o now).1.link [] (emittedBy (Session.greeting o)) [] [] := by
  have hemits := emits_performAll o now (Session.greeting o) { session := .start o }
  rw [start, hemits.link]
  exact ⟨Link.sound_start.aside (Link.aside_emitAll _ {}), Service.serves_start _⟩

theorem serves_before (n : Nat) : (course.state n).link.Sound ∧
    Service.Serves (course.state n).link (handledBefore course n) (emittedBefore course n)
      (heard course n) (sentBytes (course.effects n)) := by
  induction n with
  | zero => exact serves_start o now
  | succ n ih =>
    rw [Course.effects, sentBytes_append]
    exact serves_step (course.happens n).2 ih.1 ih.2

/-- The connection of a client, at every moment, is at a moment of the course of a service:
its link is that of the service, whose handler was called for what was handled, the same
was emitted, and the same has arrived and was put on the transport. -/
theorem serves_connection (n : Nat) :
    ∃ (service : Course Service.step {}) (k : Nat),
      service.state k = Service.atRest (course.state n).link ∧
      Service.begun (service.effects k) = Service.Attendance.calls (handledBefore course n)
        (Service.atRest (course.state n).link).attendance ∧
      (Service.emits (service.effects k)).map Prod.fst = emittedBefore course n ∧
      Service.heard service k = heard course n ∧
      Service.sent (service.effects k) = sentBytes (course.effects n) :=
  (serves_before course n).2

/-- The messages that a client has handled are a beginning of those that arrived, and all of
them once its connection has finished, if the reader was not told to stop. -/
theorem handles_in_order (n : Nat) :
    handledBefore course n <+: messagesIn (heard course n) ∧
      ((course.state n).link.stage = .finished → ∀ why, (course.state n).link.readEnd = some why →
        why ≠ .told → handledBefore course n = messagesIn (heard course n)) :=
  (serves_before course n).2.handles_in_order

theorem sends_in_order (n : Nat) : sentBytes (course.effects n) <+:
    bytesOf ((emittedBefore course n).takeWhile fun m => Frame.Fits m.body) :=
  (serves_before course n).2.sends_in_order

end Moments

end Serving

end ReverseTunnel.Client

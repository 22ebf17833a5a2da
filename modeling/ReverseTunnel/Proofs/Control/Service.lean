import ReverseTunnel.Proofs.Control.Carrying
import ReverseTunnel.Proofs.Course

/-!
A link with the handler that serves it.

Beside the reader and the writer of a link, its handler is at work. It is called first
when the link is connected, then for each message that was read, and last when the link
is finished, and one call returns before the next begins. A call may take any time:
meanwhile the link goes on, and messages are emitted on it, by the call or by others.
The link is flushed only after the handler has returned from the last message.

`Service.step` adds the handler's steps and what is emitted to the steps of the link, so
that a course is any order of what happens on a connection, whatever its handler does.
`Service.Move` lists what each step can do. Servers and clients serve their connections in
this way (`Server.serves_each`, `Client.Serving.serves_connection`).
-/

namespace ReverseTunnel.Control

open Wire (Message messagesIn)

/-- What a handler is called for. -/
inductive Call where
  | connected
  | message (m : Message)
  | disconnected
  deriving DecidableEq, Repr

/-- Whether a handler was called for the beginning and for the end of its link. -/
inductive Attendance where
  | coming
  | present
  | gone
  deriving DecidableEq, Repr

structure Service where
  link : Link := {}
  attendance : Attendance := .coming
  /-- What the handler was called for and has not returned from. -/
  calling : Option Call := none
  deriving DecidableEq, Repr

inductive ServiceEffect where
  | link (e : LinkEffect)
  /-- A message was emitted, and accepted or refused. -/
  | emitted (m : Message) (accepted : Bool)
  | begins (c : Call)
  | returns (c : Call)
  deriving DecidableEq, Repr

inductive ServiceEvent where
  | link (e : LinkEvent)
  | emit (m : Message)
  /-- The handler is called for what comes next. -/
  | call
  /-- The handler returns. -/
  | back
  deriving DecidableEq, Repr

namespace Service

/-- What comes next for a handler that is not called, and the service with it begun. -/
def next? (s : Service) : Option (Call × Service) :=
  match s.attendance with
  | .coming => some (.connected, { s with attendance := .present })
  | .present =>
    match s.link.take? with
    | some (m, link) => some (.message m, { s with link })
    | none =>
      if s.link.stage = .finished then some (.disconnected, { s with attendance := .gone }) else none
  | .gone => none

def call (s : Service) : Service × List ServiceEffect :=
  if s.calling.isSome then (s, [])
  else
    match s.next? with
    | none => (s, [])
    | some (c, s) => ({ s with calling := some c }, [.begins c])

def back (s : Service) : Service × List ServiceEffect :=
  match s.calling with
  | none => (s, [])
  | some c => ({ s with calling := none }, [.returns c])

def emit (s : Service) (m : Message) : Service × List ServiceEffect :=
  let (accepted, link, effects) := s.link.emit m
  ({ s with link }, .emitted m accepted :: effects.map .link)

/-- The handler has to return before the link can be flushed. -/
def holds (s : Service) : LinkEvent → Bool
  | .beginFlush _ => s.attendance == .coming || s.calling.isSome
  | _ => false

def onLink (s : Service) (e : LinkEvent) : Service × List ServiceEffect :=
  if s.holds e then (s, [])
  else
    let (link, effects) := s.link.step e
    ({ s with link }, effects.map .link)

def step (s : Service) : ServiceEvent → Service × List ServiceEffect
  | .link e => s.onLink e
  | .emit m => s.emit m
  | .call => s.call
  | .back => s.back

/-! ## What was done -/

/-- The calls that began. -/
def begun (fx : List ServiceEffect) : List Call :=
  fx.filterMap fun | .begins c => some c | _ => none

/-- The calls that returned. -/
def returned (fx : List ServiceEffect) : List Call :=
  fx.filterMap fun | .returns c => some c | _ => none

/-- What was emitted, and whether it was accepted. -/
def emits (fx : List ServiceEffect) : List (Message × Bool) :=
  fx.filterMap fun | .emitted m accepted => some (m, accepted) | _ => none

/-- What was emitted and accepted. -/
def accepted (fx : List ServiceEffect) : List Message :=
  fx.filterMap fun | .emitted m true => some m | _ => none

def onWire (fx : List ServiceEffect) : List LinkEffect :=
  fx.filterMap fun | .link e => some e | _ => none

/-- The bytes that were put on the transport. -/
def sent (fx : List ServiceEffect) : Bytes := Link.sentBytes (onWire fx)

/-- What arrives with an event. -/
def heardAt (s : Service) : ServiceEvent → Bytes
  | .link e => s.link.heardAt e
  | _ => []

/-- What has arrived before a moment. -/
def heard (c : Course step {}) : Nat → Bytes
  | 0 => []
  | n + 1 => heard c n ++ (c.state n).heardAt (c.happens n)

variable {s s' : Service} {e : ServiceEvent} {fx : List ServiceEffect}

@[simp] theorem begun_links (ls : List LinkEffect) : begun (ls.map .link) = [] := by
  simp [begun, List.filterMap_map]

@[simp] theorem returned_links (ls : List LinkEffect) : returned (ls.map .link) = [] := by
  simp [returned, List.filterMap_map]

@[simp] theorem emits_links (ls : List LinkEffect) : emits (ls.map .link) = [] := by
  simp [emits, List.filterMap_map]

@[simp] theorem accepted_links (ls : List LinkEffect) : accepted (ls.map .link) = [] := by
  simp [accepted, List.filterMap_map]

@[simp] theorem onWire_links (ls : List LinkEffect) : onWire (ls.map .link) = ls := by
  rw [onWire, List.filterMap_map]
  exact List.filterMap_some

section

variable (m : Message) (fx : List ServiceEffect) (b : Bool)

@[simp] theorem begun_emitted : begun (.emitted m b :: fx) = begun fx := rfl

@[simp] theorem returned_emitted : returned (.emitted m b :: fx) = returned fx := rfl

@[simp] theorem onWire_emitted : onWire (.emitted m b :: fx) = onWire fx := rfl

@[simp] theorem emits_emitted : emits (.emitted m b :: fx) = (m, b) :: emits fx := rfl

@[simp] theorem accepted_emitted :
    accepted (.emitted m b :: fx) = if b then m :: accepted fx else accepted fx := by
  cases b <;> rfl

end

/-! ## What each step can do -/

inductive Move (s : Service) : ServiceEvent → Service → List ServiceEffect → Prop
  | rests (e : ServiceEvent) (hquiet : s.heardAt e = []) : Move s e s []
  | links (e : LinkEvent) (l : Link) (ls : List LinkEffect) (hm : s.link.Move e l ls)
      (hfree : s.holds e = false) : Move s (.link e) { s with link := l } (ls.map .link)
  | emits (m : Message) (ls : List LinkEffect)
      (hcounts : ∃ counts : List Count, ls = counts.map .count) :
      Move s (.emit m) { s with link := s.link.emitted m }
        (.emitted m s.link.accepts :: ls.map .link)
  | connects (hidle : s.calling = none) (hcoming : s.attendance = .coming) :
      Move s .call { s with attendance := .present, calling := some .connected } [.begins .connected]
  | hands (m : Message) (l : Link) (hidle : s.calling = none) (hpresent : s.attendance = .present)
      (htake : s.link.take? = some (m, l)) :
      Move s .call ⟨l, .present, some (.message m)⟩ [.begins (.message m)]
  | parts (hidle : s.calling = none) (hpresent : s.attendance = .present)
      (hfinished : s.link.stage = .finished) :
      Move s .call { s with attendance := .gone, calling := some .disconnected }
        [.begins .disconnected]
  | returns (c : Call) (hcalling : s.calling = some c) :
      Move s .back { s with calling := none } [.returns c]

theorem move_call (s : Service) : Move s .call s.call.1 s.call.2 := by
  unfold call
  split
  · exact .rests _ rfl
  · rename_i hbusy
    have hidle : s.calling = none := by simpa using hbusy
    unfold next?
    cases hattendance : s.attendance with
    | coming => exact .connects hidle hattendance
    | gone => exact .rests _ rfl
    | present =>
      cases htake : s.link.take? with
      | some taken => exact .hands taken.1 taken.2 hidle hattendance htake
      | none =>
        dsimp only
        by_cases hfinished : s.link.stage = .finished
        · rw [if_pos hfinished]
          exact .parts hidle hattendance hfinished
        · rw [if_neg hfinished]
          exact .rests _ rfl

theorem move_back (s : Service) : Move s .back s.back.1 s.back.2 := by
  unfold back
  cases hcalling : s.calling with
  | none => exact .rests _ rfl
  | some c => exact .returns c hcalling

theorem move_emit (s : Service) (m : Message) : Move s (.emit m) (s.emit m).1 (s.emit m).2 := by
  have hemit : (s.emit m).2 = .emitted m s.link.accepts :: (s.link.emit m).2.2.map .link := by
    rw [← Link.emit_fst s.link m]
    rfl
  rw [hemit]
  exact .emits m _ (Link.emit_counts s.link m)

theorem move_onLink (s : Service) (e : LinkEvent) :
    Move s (.link e) (s.onLink e).1 (s.onLink e).2 := by
  unfold onLink
  split
  · rename_i hheld
    have hquiet : s.link.heardAt e = [] := by
      cases e with
      | beginFlush => rfl
      | _ => cases hheld
    exact .rests _ hquiet
  · rename_i hfree
    exact .links e _ _ (Link.move s.link e) (by simpa using hfree)

theorem move (s : Service) (e : ServiceEvent) : Move s e (s.step e).1 (s.step e).2 := by
  cases e with
  | link e => exact move_onLink s e
  | emit m => exact move_emit s m
  | call => exact move_call s
  | back => exact move_back s

theorem closed_move (h : s.link.closed = true) (hm : Move s e s' fx) : s'.link.closed = true := by
  cases hm with
  | links e l ls hm => exact Link.closed_move h hm
  | emits m => exact (Link.aside_emitted s.link m).closed h
  | hands m l _ _ htake =>
    obtain ⟨-, hl⟩ := Link.take?_eq_some htake
    rw [hl]
    exact h
  | _ => exact h

theorem sound_move (h : s.link.Sound) (hm : Move s e s' fx) : s'.link.Sound := by
  cases hm with
  | links e l ls hm => exact h.move hm
  | emits m => exact h.aside (Link.aside_emitted s.link m)
  | hands m l _ _ htake => exact Link.sound_take? h htake
  | _ => exact h

end Service

end ReverseTunnel.Control

import ReverseTunnel.Metrics
import ReverseTunnel.Wire.Frame
import ReverseTunnel.Wire.Payload

/-!
A control connection as one end of it runs: what has arrived and is not yet read,
the messages read and waiting to be handled, the messages accepted and waiting to
be written, and the frame that is being written.

Three parties work on a link, each at its own pace. The reader draws one message
after another from what arrives, and waits while too many are unhandled; the
handler takes them in that order; the writer puts the messages that were emitted on
the transport, one frame after another. The link is closed by either end, by a
violation or from outside. From then on nothing more is accepted; the messages read
so far are still handled and the messages accepted so far are still written, the
latter for a limited time only. The last step finishes the link.

Each step is a function of its own, and `step` takes any of them as an event, so
that a list of events is a run with any order of the three parties' steps. A step
that is not possible leaves the link as it is.
-/

namespace ReverseTunnel.Control

open Wire (Message Frame)

/-- The most messages read and not yet handled. -/
def inboxLimit : Nat := 64

/-- The most messages accepted and not yet begun to be written. -/
def outboxLimit : Nat := 256

/-- How long a closed link may take to write what it accepted, in milliseconds. -/
def flushLimit : Nat := 5000

/-- Why the reader stopped. -/
inductive ReadEnd where
  /-- The far end finished, and nothing was left over. -/
  | endOfStream
  /-- What arrived is no frame, or the far end finished within one. -/
  | violation
  /-- A frame carries no message of its kind. -/
  | badPayload
  /-- The link was closed, or everything is being shut down. -/
  | told
  deriving DecidableEq, Repr

/-- How far a link has come. -/
inductive Stage where
  | open
  /-- Everything read is handled; what was accepted is being written, since then. -/
  | flushing (since : Nat)
  | finished
  deriving DecidableEq, Repr

/-- One end of a control connection. -/
structure Link where
  /-- What has arrived and is not yet read. -/
  unread : Bytes := []
  /-- The far end sends nothing more. -/
  remoteEnded : Bool := false
  /-- Why the reader stopped, once it has. -/
  readEnd : Option ReadEnd := none
  /-- Read and not yet handled. -/
  inbox : List Message := []
  /-- Nothing more is accepted. -/
  closed : Bool := false
  /-- Accepted and not yet begun to be written. -/
  outbox : List Message := []
  /-- What is left of the frame that is being written. -/
  sending : Bytes := []
  /-- The writer writes nothing more. -/
  writerStopped : Bool := false
  stage : Stage := .open
  deriving DecidableEq, Repr

/-- What a step of a link does to the world around it. -/
inductive LinkEffect where
  /-- Bytes are put on the transport. -/
  | sent (bs : Bytes)
  /-- The far end is told that nothing more comes. -/
  | sentEnd
  | count (c : Count)
  deriving DecidableEq, Repr

namespace Link

/-! The far end. -/

def receive (l : Link) (bs : Bytes) : Link :=
  if l.remoteEnded then l else { l with unread := l.unread ++ bs }

def receiveEnd (l : Link) : Link := { l with remoteEnded := true }

/-! Closing. -/

/-- Nothing more is accepted from now on. -/
def close (l : Link) : Link := { l with closed := true }

/-- The reader stops, and the link is closed with it. -/
def stopReading (l : Link) (why : ReadEnd) : Link := { l with readEnd := some why, closed := true }

/-- Another violation is counted. -/
def violationCount : LinkEffect := .count ⟨.framingViolations, 1⟩

/-! The reader. -/

/-- The reader draws the next message, or finds out why there is none. It waits if
more has to arrive first or too many messages are unhandled. -/
def read (l : Link) : Link × List LinkEffect :=
  if l.readEnd.isSome then (l, [])
  else
    match Frame.decode l.unread with
    | .error _ => (l.stopReading .violation, [violationCount])
    | .ok none =>
      -- the rest of the frame may still arrive
      if !l.remoteEnded then (l, [])
      else if l.unread.isEmpty then (l.stopReading .endOfStream, [])
      else (l.stopReading .violation, [violationCount])
    | .ok (some (frame, rest)) =>
      match Message.ofBody frame.kind frame.body with
      | .error _ => (l.stopReading .badPayload, [])
      | .ok m =>
        -- a message that finds no room stays unread
        if l.inbox.length < inboxLimit then ({ l with unread := rest, inbox := l.inbox ++ [m] }, [])
        else (l, [])

/-- The reader notices that the link was closed. -/
def noticeClose (l : Link) : Link :=
  if l.readEnd.isNone && l.closed then l.stopReading .told else l

/-- The reader is told that everything is being shut down. -/
def shutDown (l : Link) : Link := if l.readEnd.isNone then l.stopReading .told else l

/-! The handler. -/

/-- The next message to handle, and the link once it is taken. -/
def take? (l : Link) : Option (Message × Link) :=
  match l.inbox with
  | [] => none
  | m :: rest => some (m, { l with inbox := rest })

/-- Whether a message that is emitted now is accepted. -/
def accepts (l : Link) : Bool := !l.closed && l.outbox.length < outboxLimit

/-- A message is emitted: whether it is accepted, and the link after it. A closed
link accepts none. One whose outbox is full is closed, for its far end has stopped
reading. -/
def emit (l : Link) (m : Message) : Bool × Link × List LinkEffect :=
  if l.closed then (false, l, [])
  else if l.outbox.length < outboxLimit then (true, { l with outbox := l.outbox ++ [m] }, [])
  else (false, l.close, [.count ⟨.stalledPeers, 1⟩])

theorem emit_fst (l : Link) (m : Message) : (l.emit m).1 = l.accepts := by
  unfold emit accepts
  cases l.closed <;> by_cases h : l.outbox.length < outboxLimit <;> simp [h]

/-! The writer. -/

/-- The writer begins the next frame. A message that is too long for one ends the
stream. -/
def beginFrame (l : Link) : Link :=
  if l.writerStopped || !l.sending.isEmpty then l
  else
    match l.outbox with
    | [] => l
    | m :: rest =>
      match Frame.append m.kind.code m.body [] with
      | .ok bs => { l with outbox := rest, sending := bs }
      | .error _ => { l with outbox := rest, writerStopped := true, closed := true }

/-- The transport takes at most `n` bytes of the frame that is being written. -/
def transmit (l : Link) (n : Nat) : Link × List LinkEffect :=
  if l.writerStopped || (l.sending.take n).isEmpty then (l, [])
  else ({ l with sending := l.sending.drop n }, [.sent (l.sending.take n)])

def failWriting (l : Link) : Link :=
  if l.writerStopped then l
  -- what was accepted and is not yet written is lost
  else { l with writerStopped := true, closed := true, sending := [], outbox := [] }

/-- Everything accepted before the link was closed is written; the far end is told
that nothing more comes. -/
def endWriting (l : Link) : Link × List LinkEffect :=
  if !l.writerStopped && l.closed && l.outbox.isEmpty && l.sending.isEmpty then
    ({ l with writerStopped := true }, [.sentEnd])
  else (l, [])

/-! The end. -/

/-- Everything read is handled, and from now on the writer's time is limited. -/
def beginFlush (l : Link) (now : Nat) : Link :=
  if l.stage = .open ∧ l.readEnd.isSome ∧ l.inbox = [] then { l with stage := .flushing now } else l

/-- The writer's time is up: what is not yet written is dropped. -/
def giveUp (l : Link) (now : Nat) : Link :=
  match l.stage with
  | .flushing since =>
    if since + flushLimit ≤ now ∧ l.writerStopped = false then
      { l with writerStopped := true, sending := [], outbox := [] }
    else l
  | _ => l

/-- The link is finished and its transport dropped. -/
def finish (l : Link) : Link × List LinkEffect :=
  match l.stage with
  | .flushing _ => if l.writerStopped then ({ l with stage := .finished }, [.sentEnd]) else (l, [])
  | _ => (l, [])

end Link

/-- What can happen on a link. -/
inductive LinkEvent where
  | receive (bs : Bytes)
  | receiveEnd
  | read
  | noticeClose
  | shutDown
  | close
  | beginFrame
  | transmit (n : Nat)
  | failWriting
  | endWriting
  | beginFlush (now : Nat)
  | giveUp (now : Nat)
  | finish
  deriving DecidableEq, Repr

def Link.step (l : Link) : LinkEvent → Link × List LinkEffect
  | .receive bs => (l.receive bs, [])
  | .receiveEnd => (l.receiveEnd, [])
  | .read => l.read
  | .noticeClose => (l.noticeClose, [])
  | .shutDown => (l.shutDown, [])
  | .close => (l.close, [])
  | .beginFrame => (l.beginFrame, [])
  | .transmit n => l.transmit n
  | .failWriting => (l.failWriting, [])
  | .endWriting => l.endWriting
  | .beginFlush now => (l.beginFlush now, [])
  | .giveUp now => (l.giveUp now, [])
  | .finish => l.finish

end ReverseTunnel.Control

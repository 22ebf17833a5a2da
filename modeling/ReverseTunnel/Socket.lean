import ReverseTunnel.Bytes

/-!
A byte connection as one end of it sees the other: what has come from the far end
and is not yet read, and whether the far end still sends and still takes.
-/

namespace ReverseTunnel

/-- One end of a byte connection. -/
structure Socket where
  /-- What has arrived and is not yet read. -/
  unread : Bytes := []
  /-- The far end sends nothing more; what is unread can still be read. -/
  remoteEnded : Bool := false
  /-- The far end is gone, and writing to it fails. -/
  remoteGone : Bool := false
  /-- The connection was reset, and reading fails too. -/
  broken : Bool := false
  deriving DecidableEq, Repr

/-- What the far end does. -/
inductive Arrival where
  | bytes (bs : Bytes)
  /-- It finishes sending and goes on taking. -/
  | ended
  | gone
  | reset
  deriving DecidableEq, Repr

/-- The connection after the far end has done something. -/
def Socket.receive (s : Socket) : Arrival → Socket
  | .bytes bs => if s.remoteEnded then s else { s with unread := s.unread ++ bs }
  | .ended => { s with remoteEnded := true }
  | .gone => { s with remoteEnded := true, remoteGone := true }
  | .reset => { unread := [], remoteEnded := true, remoteGone := true, broken := true }

/-- A connection under the number that tells it from others. -/
structure Party where
  key : Nat
  socket : Socket := {}
  deriving DecidableEq, Repr

/-- The connection after its far end has done something, if it is the one meant. -/
def Party.receive (p : Party) (key : Nat) (a : Arrival) : Party :=
  if p.key = key then { p with socket := p.socket.receive a } else p

end ReverseTunnel

/-!
Listening for connections: how long a listener rests when accepting one has failed.
-/

namespace ReverseTunnel.Listener

/-- Why accepting a connection failed. -/
inductive AcceptError where
  /-- The connection was given up by its other end. -/
  | aborted
  | reset
  | refused
  /-- A signal came in between. -/
  | interrupted
  /-- The listener itself is short of something. -/
  | exhausted (errno : Nat)
  deriving DecidableEq, Repr

/-- The failure that an error number stands for. -/
def AcceptError.ofErrno : Nat → AcceptError
  | 103 => .aborted
  | 104 => .reset
  | 111 => .refused
  | 4 => .interrupted
  | errno => .exhausted errno

/-- How long to rest, in milliseconds. A failure of one connection is no reason to
rest; a failure of the listener would repeat at once. -/
def AcceptError.pause? : AcceptError → Option Nat
  | .exhausted _ => some 100
  | _ => none

end ReverseTunnel.Listener

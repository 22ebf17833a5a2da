import ReverseTunnel.Socket

/-!
A relay: two connections joined, so that what comes from either goes to the other.

First a relay writes what it was given to write, each piece to its side and in
order. Then it copies in both directions. When one side has ended and everything
from it is copied, the other is told so; when that has happened both ways the relay
closes, and says how much it copied. It is aborted when a side to be written to is
gone, when a side is broken, or when a transport fails.

Every step moves as many bytes as its event says, so that a run may cut the streams
anywhere.
-/

namespace ReverseTunnel

inductive Side where
  | front
  | back
  deriving DecidableEq, Repr

def Side.other : Side → Side
  | .front => .back
  | .back => .front

/-- What has been copied from one side. -/
structure Flow where
  copied : Nat := 0
  /-- The other side was told that nothing more comes. -/
  ended : Bool := false
  deriving DecidableEq, Repr

/-- Two connections joined. -/
structure Relay where
  front : Party
  back : Party
  /-- What is written before anything is copied, with the side it goes to. -/
  opening : List (Side × Bytes) := []
  fromFront : Flow := {}
  fromBack : Flow := {}
  deriving DecidableEq, Repr

/-- What a relay does to its two connections. -/
inductive RelayEffect where
  | deliver (key : Nat) (bs : Bytes)
  /-- The far end is told that nothing more comes. -/
  | finish (key : Nat)
  deriving DecidableEq, Repr

/-- What can happen on a relay. -/
inductive RelayEvent where
  /-- At most `n` bytes of the opening are written. -/
  | write (n : Nat)
  /-- At most `n` bytes that came from a side are copied. -/
  | copy (source : Side) (n : Nat)
  | forwardEnd (source : Side)
  | close
  | fail
  deriving DecidableEq, Repr

/-- What a step of a relay leads to. -/
inductive RelayStep where
  | goesOn (r : Relay) (effects : List RelayEffect)
  /-- All was copied, this much from the front and from the back. -/
  | closes (fromFront fromBack : Nat)
  | aborts
  deriving DecidableEq, Repr

namespace Relay

def party (r : Relay) : Side → Party
  | .front => r.front
  | .back => r.back

def flow (r : Relay) : Side → Flow
  | .front => r.fromFront
  | .back => r.fromBack

def setParty (r : Relay) (p : Party) : Side → Relay
  | .front => { r with front := p }
  | .back => { r with back := p }

def setFlow (r : Relay) (f : Flow) : Side → Relay
  | .front => { r with fromFront := f }
  | .back => { r with fromBack := f }

/-- The far end of one of the connections does something. -/
def receive (r : Relay) (key : Nat) (a : Arrival) : Relay :=
  { r with front := r.front.receive key a, back := r.back.receive key a }

def stay (r : Relay) : RelayStep := .goesOn r []

/-- Writes of the opening; a piece of no bytes is written whatever its side. -/
def write (r : Relay) (n : Nat) : RelayStep :=
  match r.opening with
  | [] => r.stay
  | (side, bs) :: rest =>
    -- nothing is put on the transport, so it may be gone
    if bs.isEmpty then .goesOn { r with opening := rest } []
    else if n = 0 then r.stay
    else if (r.party side).socket.remoteGone then .aborts
    else
      let left := if (bs.drop n).isEmpty then rest else (side, bs.drop n) :: rest
      .goesOn { r with opening := left } [.deliver (r.party side).key (bs.take n)]

def copy (r : Relay) (source : Side) (n : Nat) : RelayStep :=
  let p := r.party source
  let f := r.flow source
  -- the opening goes first, and nothing follows an end
  if !r.opening.isEmpty || f.ended then r.stay
  else if p.socket.broken then .aborts
  else
    let bs := p.socket.unread.take n
    if bs.isEmpty then r.stay
    else if (r.party source.other).socket.remoteGone then .aborts
    else
      let left := { p with socket := { p.socket with unread := p.socket.unread.drop n } }
      .goesOn ((r.setParty left source).setFlow { f with copied := f.copied + bs.length } source)
        [.deliver (r.party source.other).key bs]

/-- Tells the other side that a side has ended. -/
def forwardEnd (r : Relay) (source : Side) : RelayStep :=
  let p := r.party source
  let f := r.flow source
  if !r.opening.isEmpty || f.ended then r.stay
  else if p.socket.broken then .aborts
  -- the end is told only behind everything that came before it
  else if p.socket.remoteEnded && p.socket.unread.isEmpty then
    .goesOn (r.setFlow { f with ended := true } source) [.finish (r.party source.other).key]
  else r.stay

def close (r : Relay) : RelayStep :=
  if r.fromFront.ended && r.fromBack.ended then .closes r.fromFront.copied r.fromBack.copied
  else r.stay

def step (r : Relay) : RelayEvent → RelayStep
  | .write n => r.write n
  | .copy source n => r.copy source n
  | .forwardEnd source => r.forwardEnd source
  | .close => r.close
  | .fail => .aborts

end Relay

end ReverseTunnel

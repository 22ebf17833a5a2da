import ReverseTunnel.Socket

/-!
The cast of a rehearsal: the scripted far ends of its connections.

A rehearsal runs parts of the program against far ends that a script moves, on a
clock that the script moves too. Each far end, a peer, has a name and is at the
other end of one connection. It reads all the time until the script stops it; from
then on the connection holds a limited number of bytes for it. What reaches the
peers is collected until it is asked for.
-/

namespace ReverseTunnel.Rehearsal

/-- What the script lets a peer do. -/
inductive PeerAct where
  | send (bs : Bytes)
  | shutDown
  | close
  | pauseRead
  deriving DecidableEq, Repr

/-- How many bytes a connection holds for a peer that has stopped reading. -/
def heldBytes : Nat := 4096

structure Peer where
  name : String
  key : Nat
  /-- How many bytes the connection still holds for it, once it has stopped reading. -/
  room : Option Nat := none
  left : Bool := false
  /-- It was told that nothing more comes. -/
  toldEnd : Bool := false
  deriving DecidableEq, Repr

/-- What reached a peer. -/
structure News where
  /-- The program opened the connection. -/
  accepted : Bool := false
  received : Bytes := []
  /-- Nothing more comes. -/
  ended : Bool := false
  deriving DecidableEq, Repr

/-- The peers, and what reached them since it was last asked for. -/
structure Cast where
  peers : List Peer := []
  news : List (String × News) := []
  deriving DecidableEq, Repr

namespace Cast

def peer? (c : Cast) (key : Nat) : Option Peer := c.peers.find? (·.key = key)

/-- The connection of a name; of several the latest. -/
def keyOf? (c : Cast) (name : String) : Option Nat :=
  (c.peers.reverse.find? (·.name = name)).map (·.key)

def enter (c : Cast) (name : String) (key : Nat) : Cast :=
  { c with peers := c.peers ++ [{ name, key }] }

/-- Adds to the news of a name. -/
def addNews (name : String) (f : News → News) : List (String × News) → List (String × News)
  | [] => [(name, f {})]
  | (k, n) :: rest => if k = name then (k, f n) :: rest else (k, n) :: addNews name f rest

/-- Changes the peer of a connection. -/
def change (c : Cast) (key : Nat) (f : Peer → Peer) : Cast :=
  { c with peers := c.peers.map fun p => if p.key = key then f p else p }

/-- How many of `n` bytes the connection takes. -/
def takes (c : Cast) (key n : Nat) : Nat :=
  match (c.peer? key).bind (·.room) with
  | some room => min room n
  | none => n

def hasLeft (c : Cast) (key : Nat) : Bool := (c.peer? key).any (·.left)

/-- Bytes reach a peer, or the connection holds them for it. -/
def deliver (c : Cast) (key : Nat) (bs : Bytes) : Cast :=
  match c.peer? key with
  | none => c
  | some p =>
    match p.room with
    | some room => c.change key fun p => { p with room := some (room - bs.length) }
    | none =>
      if p.left then c
      else { c with news := addNews p.name (fun n => { n with received := n.received ++ bs }) c.news }

/-- A peer is told that nothing more comes, once. -/
def finish (c : Cast) (key : Nat) : Cast :=
  match c.peer? key with
  | none => c
  | some p =>
    if p.left || p.toldEnd || p.room.isSome then c
    else
      let c := c.change key fun p => { p with toldEnd := true }
      { c with news := addNews p.name (fun n => { n with ended := true }) c.news }

/-- What a peer does reaches the program, or is about the peer alone. -/
def act (c : Cast) (key : Nat) : PeerAct → Cast × Option Arrival
  | .send bs => (c, if c.hasLeft key then none else some (.bytes bs))
  | .shutDown => (c, if c.hasLeft key then none else some .ended)
  | .close => (c.change key fun p => { p with left := true }, some .gone)
  | .pauseRead => (c.change key fun p => { p with room := p.room.or (some heldBytes) }, none)

/-- What reached the peers, and nothing of it any more. -/
def takeNews (c : Cast) : List (String × News) × Cast := (c.news, { c with news := [] })

end Cast

end ReverseTunnel.Rehearsal

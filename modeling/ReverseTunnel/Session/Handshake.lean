import ReverseTunnel.Bytes

/-!
The handshake of a data connection: a mark of four bytes and the session id.

The dialing client writes it first; the data proxy writes it back once the
session is paired. `inspect` looks at what a connection has sent so far and says
whether it can still become, has become, or cannot be a handshake.
-/

namespace ReverseTunnel.Session.Handshake

/-- The mark of a data connection. -/
def mark : Bytes := [0x7F, 0x54, 0x44, 0x43]

/-- The number of bytes of a handshake. -/
def length : Nat := 8

def encode (session : UInt32) : Bytes := mark ++ Bytes.be 4 session.toNat

/-- What the first bytes of a connection show. -/
inductive Verdict where
  /-- So far they begin a handshake. -/
  | undecided
  /-- They depart from the mark. -/
  | foreign
  /-- They are a handshake, and whatever follows it. -/
  | data (session : UInt32)
  deriving DecidableEq, Repr

/-- Looks at the first bytes of a connection. -/
def inspect (bs : Bytes) : Verdict :=
  if bs.take 4 ≠ mark.take (bs.take 4).length then .foreign
  else
    match bs with
    | _ :: _ :: _ :: _ :: a :: b :: c :: d :: _ => .data (UInt32.ofNat (Bytes.ofBE [a, b, c, d]))
    | _ => .undecided

end ReverseTunnel.Session.Handshake

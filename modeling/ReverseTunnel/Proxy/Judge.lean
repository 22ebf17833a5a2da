import ReverseTunnel.Session.Handshake
import ReverseTunnel.Socket

/-!
Telling users from data connections by what they send first.

A connection is judged on its first bytes until they show what it is, until it
ends, or until its time is up; a connection that has shown nothing by then is a
user. No byte is lost: what was read is kept with the judgement, and the rest is
still unread.
-/

namespace ReverseTunnel.Proxy

open Session

/-- What a connection turns out to be. -/
inductive Judgement where
  /-- A user, with the bytes read from it. -/
  | user (buffered : Bytes)
  /-- The data connection of a session, with the bytes read behind its handshake. -/
  | data (session : UInt32) (rest : Bytes)
  /-- It ended before it showed anything. -/
  | closed
  deriving DecidableEq, Repr

/-- The most bytes that are read from a connection to judge it. -/
def judgedLimit : Nat := 1024

/-- What the bytes read so far show, if they show it yet. -/
def judgement? (buffer : Bytes) : Option Judgement :=
  match Handshake.inspect buffer with
  | .undecided => none
  | .foreign => some (.user buffer)
  | .data session => some (.data session (buffer.drop Handshake.length))

/-- A look at a connection of which `buffer` was read and showed nothing: the
judgement if there is one now, the bytes read, and the connection without them. -/
def look (buffer : Bytes) (s : Socket) : Option Judgement × Bytes × Socket :=
  -- what is beyond the limit is left for whoever takes the connection over
  let room := judgedLimit - buffer.length
  let seen := buffer ++ s.unread.take room
  let s := { s with unread := s.unread.drop room }
  match judgement? seen with
  | some j => (some j, seen, s)
  -- an end shows nothing as long as something in front of it is unread
  | none => (if s.remoteEnded && s.unread.isEmpty then some .closed else none, seen, s)

/-- What the far end of a single connection does. -/
inductive Act where
  | send (bs : Bytes)
  /-- Nothing happens for some milliseconds. -/
  | wait (ms : Nat)
  | close
  deriving DecidableEq, Repr

/-- What arrives at one moment. -/
structure Batch where
  time : Nat
  bytes : Bytes
  ends : Bool
  deriving DecidableEq, Repr

/-- Groups what the far end does by the moment at which it does it. -/
def batches : Batch → List Act → List Batch
  | b, [] => [b]
  | b, .send bs :: rest => batches (if b.ends then b else { b with bytes := b.bytes ++ bs }) rest
  | b, .close :: rest => batches { b with ends := true } rest
  | b, .wait ms :: rest =>
    if ms = 0 then batches b rest else b :: batches ⟨b.time + ms, [], b.ends⟩ rest

/-- What arrives at each moment from the start on. -/
def schedule (acts : List Act) : List Batch := batches ⟨0, [], false⟩ acts

/-- A judgement, when it was reached, and what had arrived and was not read. -/
structure Decision where
  judgement : Judgement
  time : Nat
  unread : Bytes
  deriving DecidableEq, Repr

/-- Judges a connection of which `buffer` was read and `s` is left. What arrives in
the moment in which the time is up comes too late. -/
def decideFrom (judgeDelay : Nat) (buffer : Bytes) (s : Socket) : List Batch → Decision
  | [] => ⟨.user buffer, judgeDelay, s.unread⟩
  | b :: rest =>
    if judgeDelay ≤ b.time then ⟨.user buffer, judgeDelay, s.unread⟩
    else
      let s := s.receive (.bytes b.bytes)
      let s := if b.ends then s.receive .ended else s
      match look buffer s with
      | (some j, _, s) => ⟨j, b.time, s.unread⟩
      | (none, seen, s) => decideFrom judgeDelay seen s rest

/-- Judges a connection by what arrives on it. -/
def decide (judgeDelay : Nat) (arrivals : List Batch) : Decision :=
  decideFrom judgeDelay [] {} arrivals

end ReverseTunnel.Proxy

import ReverseTunnel.Wire.Frame

/-!
The control channel as a stream: frames drawn from bytes that arrive in chunks.

A `Stream` holds the bytes that have arrived and belong to no frame yet. A chunk
is put behind them, then frames are drawn until none is complete or the stream is
violated; a violated stream yields nothing more.
-/

namespace ReverseTunnel.Wire

/-- Frames drawn from the front of a byte string, what is left, and the violation
at which drawing stopped, if any. -/
structure Drawn where
  frames : List Frame
  pending : Bytes
  failure : Option FrameError
  deriving DecidableEq, Repr

/-- Draws every frame that is complete; `acc` holds those drawn so far, latest
first. -/
def drawFrom (acc : List Frame) (bs : Bytes) : Drawn :=
  match h : Frame.decode bs with
  | .error e => ⟨acc.reverse, bs, some e⟩
  | .ok none => ⟨acc.reverse, bs, none⟩
  | .ok (some (f, rest)) =>
    have := Frame.decode_shrinks h
    drawFrom (f :: acc) rest
  termination_by bs.length

/-- Draws every frame that is complete. -/
def draw (bs : Bytes) : Drawn := drawFrom [] bs

/-- A channel that bytes arrive on. -/
structure Stream where
  pending : Bytes := []
  failure : Option FrameError := none
  deriving DecidableEq, Repr

namespace Stream

/-- A chunk arrives: the frames it completes, and the stream after it. -/
def feed (s : Stream) (chunk : Bytes) : List Frame × Stream :=
  match s.failure with
  | some e => ([], ⟨s.pending, some e⟩)
  | none =>
    let drawn := draw (s.pending ++ chunk)
    (drawn.frames, ⟨drawn.pending, drawn.failure⟩)

/-- Several chunks arrive one after another. -/
def feedAll (s : Stream) : List Bytes → List Frame × Stream
  | [] => ([], s)
  | chunk :: chunks =>
    let (frames, s) := s.feed chunk
    let (more, s) := feedAll s chunks
    (frames ++ more, s)

end Stream

end ReverseTunnel.Wire

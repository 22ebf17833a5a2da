/-!
The pause between two attempts to connect: it doubles from a least to a greatest
delay and goes back to the least when a connection is made. Delays are whole
milliseconds.
-/

namespace ReverseTunnel.Client

/-- The delays, and the one that the next pause takes. -/
structure Backoff where
  least : Nat
  greatest : Nat
  current : Nat
  deriving DecidableEq, Repr

namespace Backoff

/-- A fresh backoff; a greatest delay below the least is raised to it. -/
def new (least greatest : Nat) : Backoff := ⟨least, max greatest least, least⟩

def reset (b : Backoff) : Backoff := { b with current := b.least }

/-- The delay to wait now; the next one is twice as long, up to the greatest. -/
def next (b : Backoff) : Nat × Backoff :=
  (b.current, { b with current := min (b.current * 2) b.greatest })

end Backoff

end ReverseTunnel.Client

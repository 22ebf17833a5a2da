/-!
Session ids and connection ids.

A session id names a user connection that waits for its data connection. Ids are
issued in a cycle from 1 to the largest number whose sign bit is clear, so that 0
is never issued.
-/

namespace ReverseTunnel.Session

/-- The largest session id that is issued. -/
def maxId : Nat := 2147483647

/-- Where a source of session ids stands. -/
structure IdSource where
  next : UInt32
  deriving DecidableEq, Repr

namespace IdSource

/-- A source that starts at `first`, or at 1 if that is no session id. -/
def startingAt (first : UInt32) : IdSource :=
  ⟨if first = 0 ∨ maxId < first.toNat then 1 else first⟩

/-- A source that starts at 1. -/
def fresh : IdSource := startingAt 1

/-- The id issued now, and the source after it. -/
def draw (s : IdSource) : UInt32 × IdSource :=
  (s.next, ⟨if maxId ≤ s.next.toNat then 1 else s.next + 1⟩)

/-- The next `n` ids in the order in which they are issued, and the source after
them. -/
def drawMany : Nat → IdSource → List UInt32 × IdSource
  | 0, s => ([], s)
  | n + 1, s =>
    let (id, s) := s.draw
    let (ids, s) := drawMany n s
    (id :: ids, s)

end IdSource

/-- The name of a control connection; they are numbered from 1. -/
structure ConnId where
  number : Nat
  deriving DecidableEq, Repr

/-- The text that shows a connection. -/
def ConnId.text (c : ConnId) : String := s!"c-{c.number}"

end ReverseTunnel.Session

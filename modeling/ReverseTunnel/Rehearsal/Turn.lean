import ReverseTunnel.Control.Link

/-!
How a rehearsal lets a link run until it is idle.

In a turn the reader reads as much as it may, then everything read is handled, then
as much is written as the far end takes. Turns follow one another until one changes
nothing.
-/

namespace ReverseTunnel.Rehearsal

open Control

/-- How a rehearsal whose state is a `σ` reaches one of its links. -/
structure Grip (σ : Type) where
  view : σ → Link
  step : LinkEvent → σ → σ
  handle : σ → σ
  /-- How many of so many bytes the far end takes. -/
  takes : σ → Nat → Nat
  /-- Whether the far end is gone. -/
  left : σ → Bool
  now : σ → Nat

namespace Grip

variable {σ : Type} (g : Grip σ)

/-- The reader reads as much as it may. -/
def readAll : Nat → σ → σ
  | 0, s => s
  | fuel + 1, s =>
    let s' := g.step .read s
    if (g.view s').inbox.length = (g.view s).inbox.length then s' else readAll fuel s'

/-- Everything read is handled. -/
def handleAll : Nat → σ → σ
  | 0, s => s
  | fuel + 1, s => if (g.view s).inbox.isEmpty then s else handleAll fuel (g.handle s)

/-- As much is written as the far end takes. -/
def writeAll : Nat → σ → σ
  | 0, s => s
  | fuel + 1, s =>
    let s := g.step .beginFrame s
    if (g.view s).sending.isEmpty then s
    else if g.left s then g.step .failWriting s
    else
      let s := g.step (.transmit (g.takes s (g.view s).sending.length)) s
      if (g.view s).sending.isEmpty then writeAll fuel s else s

def turn (s : σ) : σ :=
  let s := g.readAll (inboxLimit + 1) s
  let s := g.handleAll inboxLimit s
  let s := g.step .noticeClose s
  let s := g.writeAll (outboxLimit + 1) s
  let s := g.step .endWriting s
  let s := g.step (.beginFlush (g.now s)) s
  let s := g.step (.giveUp (g.now s)) s
  g.step .finish s

/-- Turns until one changes nothing. -/
def settleWithin : Nat → σ → σ
  | 0, s => s
  | fuel + 1, s =>
    let s' := g.turn s
    if g.view s' = g.view s then s' else settleWithin fuel s'

/-- The link runs until it is idle: a turn that changes something reads a byte,
handles or writes a message, or takes the link nearer to its end. -/
def settle (s : σ) : σ :=
  let l := g.view s
  g.settleWithin (l.unread.length + l.inbox.length + l.outbox.length + 8) s

end Grip

end ReverseTunnel.Rehearsal

import ReverseTunnel.Rehearsal.Turn

/-!
What a link does in a rehearsal until it is idle.

`Grip.settle` runs the three parties of a link for as many turns as it takes. What is proved
is that it does so by steps of the link and by handling what was read, and by nothing else:
a property of the whole scene that these keep is kept by all of it (`Grip.Keeps.settle`).

Nothing is said of how many turns it takes. A scene that is left before its link is idle has
been reached like any other.
-/

namespace ReverseTunnel.Rehearsal.Grip

open Control

variable {σ : Type} {g : Grip σ} {P : σ → Prop} {s : σ}

/-- The steps of a link and the handling of what was read keep a property of the scene. -/
structure Keeps (g : Grip σ) (P : σ → Prop) : Prop where
  step : ∀ e s, P s → P (g.step e s)
  handle : ∀ s, P s → P (g.handle s)

theorem Keeps.readAll (h : g.Keeps P) : ∀ (fuel : Nat) {s : σ}, P s → P (g.readAll fuel s)
  | 0, _, hs => hs
  | fuel + 1, s, hs => by
    rw [Grip.readAll]
    split
    · exact h.step _ _ hs
    · exact h.readAll fuel (h.step _ _ hs)

theorem Keeps.handleAll (h : g.Keeps P) : ∀ (fuel : Nat) {s : σ}, P s → P (g.handleAll fuel s)
  | 0, _, hs => hs
  | fuel + 1, s, hs => by
    rw [Grip.handleAll]
    split
    · exact hs
    · exact h.handleAll fuel (h.handle _ hs)

theorem Keeps.writeAll (h : g.Keeps P) : ∀ (fuel : Nat) {s : σ}, P s → P (g.writeAll fuel s)
  | 0, _, hs => hs
  | fuel + 1, s, hs => by
    have hbegun := h.step .beginFrame _ hs
    rw [Grip.writeAll]
    dsimp only
    split
    · exact hbegun
    · split
      · exact h.step _ _ hbegun
      · split
        · exact h.writeAll fuel (h.step _ _ hbegun)
        · exact h.step _ _ hbegun

theorem Keeps.turn (h : g.Keeps P) (hs : P s) : P (g.turn s) := by
  have hread := h.step .noticeClose _ (h.handleAll inboxLimit (h.readAll (inboxLimit + 1) hs))
  have hwritten := h.step .endWriting _ (h.writeAll (outboxLimit + 1) hread)
  exact h.step .finish _ (h.step (.giveUp _) _ (h.step (.beginFlush _) _ hwritten))

theorem Keeps.settleWithin (h : g.Keeps P) : ∀ (fuel : Nat) {s : σ}, P s → P (g.settleWithin fuel s)
  | 0, _, hs => hs
  | fuel + 1, s, hs => by
    rw [Grip.settleWithin]
    split
    · exact h.turn hs
    · exact h.settleWithin fuel (h.turn hs)

theorem Keeps.settle (h : g.Keeps P) (hs : P s) : P (g.settle s) := h.settleWithin _ hs

end ReverseTunnel.Rehearsal.Grip

import ReverseTunnel.Proofs.Relay

/-!
A relay that is kept going finishes.

Every step that changes something leaves less to do (`work_lt_of_goesOn`), and a relay
whose sides have both ended always has such a step (`can_advance`): what remains in
the end is to close.
-/

namespace ReverseTunnel

namespace Relay

/-- How much of a side there is still to copy and to tell. -/
def left (s : Socket) (f : Flow) : Nat := s.unread.length + if f.ended then 0 else 1

/-- How much of an opening there is still to write. -/
def unwritten : List (Side × Bytes) → Nat
  | [] => 0
  | piece :: rest => piece.2.length + 1 + unwritten rest

/-- How much there is still to write, to copy and to tell. -/
def work (r : Relay) : Nat :=
  unwritten r.opening + left r.front.socket r.fromFront + left r.back.socket r.fromBack

/-- An event moves the relay. -/
def Advances (r : Relay) (e : RelayEvent) : Prop := r.step e ≠ .goesOn r []

theorem work_remaining {r : Relay} {side : Side} {bs : Bytes} {rest : List (Side × Bytes)}
    {n : Nat} (opening : r.opening = (side, bs) :: rest) (some : bs ≠ []) (pos : n ≠ 0) :
    ({ r with opening := remaining side (bs.drop n) rest } : Relay).work < r.work := by
  have hlen : 0 < bs.length := List.length_pos_iff.mpr some
  unfold remaining work
  rw [opening]
  split
  · simp only [unwritten]
    omega
  · simp only [unwritten, List.length_drop]
    omega

theorem left_copied {s : Socket} {f : Flow} {n : Nat} (some : s.unread.take n ≠ []) :
    left { s with unread := s.unread.drop n }
      { f with copied := f.copied + (s.unread.take n).length } < left s f := by
  have hlen := List.length_pos_iff.mpr some
  simp only [left, List.length_take, List.length_drop] at hlen ⊢
  omega

theorem work_copied {r : Relay} {source : Side} {n : Nat}
    (some : (r.party source).socket.unread.take n ≠ []) : (r.copied source n).work < r.work := by
  cases source with
  | front => exact Nat.add_lt_add_right (Nat.add_lt_add_left (left_copied some) _) _
  | back => exact Nat.add_lt_add_left (left_copied some) _

theorem left_concluded {s : Socket} {f : Flow} (going : f.ended = false) :
    left s { f with ended := true } < left s f := by
  simp [left, going]

theorem work_concluded {r : Relay} {source : Side} (going : (r.flow source).ended = false) :
    (r.concluded source).work < r.work := by
  cases source with
  | front => exact Nat.add_lt_add_right (Nat.add_lt_add_left (left_concluded going) _) _
  | back => exact Nat.add_lt_add_left (left_concluded going) _

/-- A step that changes something leaves less to do. -/
theorem work_lt_of_goesOn {r r' : Relay} {e : RelayEvent} {es : List RelayEffect}
    (hs : r.step e = .goesOn r' es) (ha : r.Advances e) : r'.work < r.work := by
  have hm := move_step (r := r) e
  rw [hs] at hm
  cases hm with
  | stay => exact absurd hs ha
  | skip n opening =>
    simp only [work, opening, unwritten]
    omega
  | write opening some pos _ => exact work_remaining opening some pos
  | copy _ _ _ some _ => exact work_copied some
  | conclude _ going _ _ _ => exact work_concluded going

/-- A step of a relay whose sides are there and sound does not abort it, unless a
transport fails. -/
theorem step_ne_aborts {r : Relay} {e : RelayEvent} (he : e ≠ .fail)
    (there : ∀ side, (r.party side).socket.remoteGone = false)
    (sound : ∀ side, (r.party side).socket.broken = false) : r.step e ≠ .aborts := by
  intro hs
  have hm := move_step (r := r) e
  rw [hs] at hm
  cases hm with
  | fail => exact he rfl
  | hindered _ side why =>
    rcases why with hg | hb
    · exact absurd hg (by rw [there side]; decide)
    · exact absurd hb (by rw [sound side]; decide)

theorem can_tell {r : Relay} (source : Side) (opened : r.opening = [])
    (there : ∀ side, (r.party side).socket.remoteGone = false)
    (sound : ∀ side, (r.party side).socket.broken = false)
    (ended : ∀ side, (r.party side).socket.remoteEnded = true)
    (going : (r.flow source).ended = false) : ∃ e, e ≠ .fail ∧ r.Advances e := by
  by_cases hread : (r.party source).socket.unread = []
  · refine ⟨.forwardEnd source, by simp, ?_⟩
    simp [Advances, step, forwardEnd, opened, going, sound source, ended source, hread]
  · refine ⟨.copy source 1, by simp, ?_⟩
    have hone : (r.party source).socket.unread.take 1 ≠ [] := by
      simpa [List.take_eq_nil_iff] using hread
    simp [Advances, step, copy, opened, going, sound source, there source.other, hone]

theorem can_advance {r : Relay} (there : ∀ side, (r.party side).socket.remoteGone = false)
    (sound : ∀ side, (r.party side).socket.broken = false)
    (ended : ∀ side, (r.party side).socket.remoteEnded = true) :
    ∃ e, e ≠ .fail ∧ r.Advances e := by
  -- the opening first, then the side that is not told yet, then closing
  match hopen : r.opening with
  | (side, bs) :: rest =>
    refine ⟨.write 1, by simp, ?_⟩
    by_cases hb : bs = []
    · intro hs
      simp only [step, write, hopen, hb, List.isEmpty_nil, if_true, RelayStep.goesOn.injEq,
        and_true] at hs
      have := congrArg (fun r : Relay => r.opening.length) hs
      simp [hopen] at this
    · simp [Advances, step, write, hopen, hb, there side]
  | [] =>
    by_cases hfront : r.fromFront.ended = true
    · by_cases hback : r.fromBack.ended = true
      · exact ⟨.close, by simp, by simp [Advances, step, close, hfront, hback]⟩
      · exact can_tell .back hopen there sound ended (by simpa [flow] using hback)
    · exact can_tell .front hopen there sound ended (by simpa [flow] using hfront)

end Relay

end ReverseTunnel

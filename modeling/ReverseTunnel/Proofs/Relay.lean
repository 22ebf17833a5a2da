import ReverseTunnel.Relay

/-!
What a step of a relay can do.

A step is one of the moves below (`move_step`): it writes of the opening, copies from
a side, tells a side that the other has ended, closes, is aborted, or changes
nothing. No step changes which connections a relay joins.
-/

namespace ReverseTunnel

theorem Party.key_receive (p : Party) (key : Nat) (a : Arrival) :
    (p.receive key a).key = p.key := by
  unfold receive
  split <;> rfl

theorem Party.socket_receive (p : Party) (key : Nat) (a : Arrival) :
    (p.receive key a).socket = if key = p.key then p.socket.receive a else p.socket := by
  unfold receive
  by_cases hk : p.key = key
  · rw [if_pos hk, if_pos hk.symm]
  · rw [if_neg hk, if_neg fun hk' => hk hk'.symm]

namespace Relay

variable (r : Relay) (p : Party) (f : Flow)

@[simp]
theorem party_setFlow (s side : Side) : (r.setFlow f s).party side = r.party side := by
  cases s <;> rfl

@[simp]
theorem opening_setFlow (s : Side) : (r.setFlow f s).opening = r.opening := by
  cases s <;> rfl

@[simp]
theorem flow_setParty (s side : Side) : (r.setParty p s).flow side = r.flow side := by
  cases s <;> rfl

@[simp]
theorem opening_setParty (s : Side) : (r.setParty p s).opening = r.opening := by
  cases s <;> rfl

theorem party_setParty (s side : Side) :
    (r.setParty p s).party side = if side = s then p else r.party side := by
  cases s <;> cases side <;> rfl

theorem flow_setFlow (s side : Side) :
    (r.setFlow f s).flow side = if side = s then f else r.flow side := by
  cases s <;> cases side <;> rfl

/-- The relay after `n` bytes were copied from a side. -/
def copied (source : Side) (n : Nat) : Relay :=
  (r.setParty
    { r.party source with
      socket := { (r.party source).socket with unread := (r.party source).socket.unread.drop n } }
    source).setFlow
    { r.flow source with
      copied := (r.flow source).copied + ((r.party source).socket.unread.take n).length }
    source

/-- The relay after a side was told that the other has ended. -/
def concluded (source : Side) : Relay :=
  r.setFlow { r.flow source with ended := true } source

/-- What is left to be written of an opening whose first piece is written in part. -/
def remaining (side : Side) (bs : Bytes) (rest : List (Side × Bytes)) : List (Side × Bytes) :=
  if bs.isEmpty then rest else (side, bs) :: rest

end Relay

theorem Side.other_ne (s : Side) : s.other ≠ s := by cases s <;> decide

theorem Side.ne_iff {s t : Side} : s ≠ t ↔ s = t.other := by cases s <;> cases t <;> decide

/-- What a step of a relay can do. -/
inductive RelayMove (r : Relay) : RelayEvent → RelayStep → Prop where
  | stay (e : RelayEvent) : RelayMove r e (.goesOn r [])
  /-- A piece of no bytes is written. -/
  | skip {side : Side} {rest : List (Side × Bytes)} (n : Nat)
      (opening : r.opening = (side, []) :: rest) :
      RelayMove r (.write n) (.goesOn { r with opening := rest } [])
  | write {side : Side} {bs : Bytes} {rest : List (Side × Bytes)} {n : Nat}
      (opening : r.opening = (side, bs) :: rest) (some : bs ≠ []) (pos : n ≠ 0)
      (there : (r.party side).socket.remoteGone = false) :
      RelayMove r (.write n)
        (.goesOn { r with opening := Relay.remaining side (bs.drop n) rest }
          [.deliver (r.party side).key (bs.take n)])
  | copy {source : Side} {n : Nat} (opened : r.opening = [])
      (going : (r.flow source).ended = false) (sound : (r.party source).socket.broken = false)
      (some : (r.party source).socket.unread.take n ≠ [])
      (there : (r.party source.other).socket.remoteGone = false) :
      RelayMove r (.copy source n)
        (.goesOn (r.copied source n)
          [.deliver (r.party source.other).key ((r.party source).socket.unread.take n)])
  | conclude {source : Side} (opened : r.opening = []) (going : (r.flow source).ended = false)
      (sound : (r.party source).socket.broken = false)
      (ended : (r.party source).socket.remoteEnded = true)
      (read : (r.party source).socket.unread = []) :
      RelayMove r (.forwardEnd source)
        (.goesOn (r.concluded source) [.finish (r.party source.other).key])
  | close (front : r.fromFront.ended = true) (back : r.fromBack.ended = true) :
      RelayMove r .close (.closes r.fromFront.copied r.fromBack.copied)
  | fail : RelayMove r .fail .aborts
  /-- A side is gone or broken. -/
  | hindered (e : RelayEvent) (side : Side)
      (why : (r.party side).socket.remoteGone = true ∨ (r.party side).socket.broken = true) :
      RelayMove r e .aborts

namespace Relay

variable {r : Relay}

theorem move_write (n : Nat) : RelayMove r (.write n) (r.write n) := by
  unfold write
  split
  · exact .stay _
  · rename_i side bs rest opening
    split
    · rename_i hb
      rw [List.isEmpty_iff.mp hb] at opening
      exact .skip n opening
    · rename_i hb
      split
      · exact .stay _
      · rename_i pos
        split
        · rename_i gone
          exact .hindered _ side (.inl gone)
        · rename_i there
          exact .write opening (by simpa using hb) pos (by simpa using there)

theorem move_copy (source : Side) (n : Nat) :
    RelayMove r (.copy source n) (r.copy source n) := by
  unfold copy
  simp only
  split
  · exact .stay _
  · rename_i hopen
    simp only [Bool.or_eq_true, Bool.not_eq_true', not_or, Bool.not_eq_true,
      Bool.not_eq_false] at hopen
    -- the opening is written and the end is not told, so the source may be read
    obtain ⟨opened, going⟩ := hopen
    split
    · rename_i broken
      exact .hindered _ source (.inr broken)
    · rename_i sound
      split
      · exact .stay _
      · rename_i some
        split
        · rename_i gone
          exact .hindered _ source.other (.inl gone)
        · rename_i there
          exact .copy (List.isEmpty_iff.mp opened) going (by simpa using sound)
            (by simpa using some) (by simpa using there)

theorem move_forwardEnd (source : Side) :
    RelayMove r (.forwardEnd source) (r.forwardEnd source) := by
  unfold forwardEnd
  simp only
  split
  · exact .stay _
  · rename_i hopen
    simp only [Bool.or_eq_true, Bool.not_eq_true', not_or, Bool.not_eq_true,
      Bool.not_eq_false] at hopen
    obtain ⟨opened, going⟩ := hopen
    split
    · rename_i broken
      exact .hindered _ source (.inr broken)
    · rename_i sound
      split
      · rename_i he
        simp only [Bool.and_eq_true] at he
        exact .conclude (List.isEmpty_iff.mp opened) going (by simpa using sound) he.1
          (List.isEmpty_iff.mp he.2)
      · exact .stay _

theorem move_step (e : RelayEvent) : RelayMove r e (r.step e) := by
  cases e with
  | write n => exact move_write n
  | copy source n => exact move_copy source n
  | forwardEnd source => exact move_forwardEnd source
  | close =>
    simp only [step, close]
    split
    · rename_i h
      simp only [Bool.and_eq_true] at h
      exact .close h.1 h.2
    · exact .stay _
  | fail => exact .fail

theorem key_of_goesOn {e : RelayEvent} {r' : Relay} {es : List RelayEffect}
    (h : r.step e = .goesOn r' es) (side : Side) : (r'.party side).key = (r.party side).key := by
  have hm := move_step (r := r) e
  rw [h] at hm
  cases hm with
  | stay => rfl
  | skip => cases side <;> rfl
  | write => cases side <;> rfl
  | copy =>
    rename_i source n _ _ _ _ _
    simp only [copied, party_setFlow, party_setParty]
    split
    · rename_i hs
      rw [hs]
    · rfl
  | conclude => rw [concluded, party_setFlow]

/-- A relay that has written its opening has none again. -/
theorem opening_of_goesOn {e : RelayEvent} {r' : Relay} {es : List RelayEffect}
    (h : r.step e = .goesOn r' es) (hopen : r.opening = []) : r'.opening = [] := by
  have hm := move_step (r := r) e
  rw [h] at hm
  cases hm with
  | stay => exact hopen
  | skip _ opening | write opening => exact absurd (hopen.symm.trans opening) (List.cons_ne_nil _ _).symm
  | copy | conclude => simpa [copied, concluded] using hopen

end Relay

end ReverseTunnel

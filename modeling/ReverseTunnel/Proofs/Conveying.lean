import ReverseTunnel.Proofs.Relay

/-!
A relay conveys bytes without loss.

Of what the far end of a connection has sent, part was read and the rest is unread
(`Held`), as long as the connection is not reset. A lane of a relay is one of its two
directions: what went out on it and what is still to be written on it is what was
read from its source, behind what the lane leads in with. Every step of a relay keeps
both of its lanes (`Lane.step`), and so does everything that the far ends do
(`Lane.receive`).
-/

namespace ReverseTunnel

/-! ## What a far end has sent -/

/-- What the far end of a connection has done so far. -/
structure Trail where
  sent : Bytes := []
  /-- It sends nothing more. -/
  ended : Bool := false
  /-- It takes nothing more. -/
  gone : Bool := false
  deriving DecidableEq, Repr

/-- The far end does something more. -/
def Trail.receive (tr : Trail) : Arrival → Trail
  | .bytes bs => if tr.ended then tr else { tr with sent := tr.sent ++ bs }
  | .ended => { tr with ended := true }
  | .gone => { tr with ended := true, gone := true }
  | .reset => { tr with ended := true, gone := true }

theorem Trail.sent_receive (tr : Trail) (a : Arrival) : tr.sent <+: (tr.receive a).sent := by
  cases a with
  | bytes bs =>
    simp only [receive]
    split
    · exact List.prefix_refl _
    · exact List.prefix_append _ _
  | ended | gone | reset => exact List.prefix_refl _

theorem Trail.receive_of_ended {tr : Trail} (h : tr.ended = true) (a : Arrival) :
    (tr.receive a).ended = true ∧ (tr.receive a).sent = tr.sent := by
  cases a <;> simp [receive, h]

/-- What was read from a connection and what is unread are what its far end has sent,
or the beginning of it if the connection was reset. -/
structure Held (tr : Trail) (taken : Bytes) (s : Socket) : Prop where
  within : taken ++ s.unread <+: tr.sent
  all : s.broken = false → taken ++ s.unread = tr.sent
  ended : s.remoteEnded = tr.ended
  gone : s.remoteGone = tr.gone
  broken : s.broken = true → s.remoteEnded = true ∧ s.remoteGone = true

theorem Held.start : Held {} [] {} :=
  ⟨List.prefix_refl _, fun _ => rfl, rfl, rfl, fun h => by cases h⟩

theorem Held.receive {tr : Trail} {taken : Bytes} {s : Socket} (h : Held tr taken s)
    (a : Arrival) : Held (tr.receive a) taken (s.receive a) := by
  cases a with
  | bytes bs =>
    cases he : s.remoteEnded with
    | true =>
      have htr : tr.ended = true := h.ended ▸ he
      simpa only [Socket.receive, he, Trail.receive, htr, if_true] using h
    | false =>
      have htr : tr.ended = false := h.ended ▸ he
      -- what is broken has ended, so what takes more bytes is sound
      have hb : s.broken = false := by
        cases hb : s.broken with
        | true => exact absurd (h.broken hb).1 (by rw [he]; decide)
        | false => rfl
      have hall : taken ++ (s.unread ++ bs) = tr.sent ++ bs := by
        rw [← List.append_assoc, h.all hb]
      simp only [Socket.receive, he, Trail.receive, htr, Bool.false_eq_true, if_false]
      exact ⟨hall ▸ List.prefix_refl _, fun _ => hall, rfl, h.gone,
        fun hb' => absurd hb' (by simp [hb])⟩
  | ended => exact ⟨h.within, h.all, rfl, h.gone, fun hb => ⟨rfl, (h.broken hb).2⟩⟩
  | gone => exact ⟨h.within, h.all, rfl, rfl, fun _ => ⟨rfl, rfl⟩⟩
  | reset =>
    -- a reset discards what is unread, and only the beginning is left
    refine ⟨?_, by simp [Socket.receive], rfl, rfl, fun _ => ⟨rfl, rfl⟩⟩
    have htaken : taken ++ [] <+: taken ++ s.unread :=
      (List.prefix_append_right_inj taken).mpr List.nil_prefix
    exact htaken.trans h.within

theorem Held.take {tr : Trail} {taken : Bytes} {s : Socket} (h : Held tr taken s) (n : Nat) :
    Held tr (taken ++ s.unread.take n) { s with unread := s.unread.drop n } := by
  have hcut : taken ++ s.unread.take n ++ s.unread.drop n = taken ++ s.unread := by
    rw [List.append_assoc, List.take_append_drop]
  exact ⟨hcut ▸ h.within, fun hb => hcut ▸ h.all hb, h.ended, h.gone, h.broken⟩

theorem Held.sound {tr : Trail} {taken : Bytes} {s : Socket} (h : Held tr taken s)
    (hg : tr.gone = false) : s.remoteGone = false ∧ s.broken = false := by
  have hs : s.remoteGone = false := h.gone.trans hg
  refine ⟨hs, ?_⟩
  cases hb : s.broken with
  | false => rfl
  | true => exact absurd (h.broken hb).2 (by rw [hs]; decide)

/-! ## Traffic -/

/-- What has passed on a connection: what its far end has done, and what has gone out to
it. -/
structure Traffic where
  came : Trail := {}
  went : Bytes := []
  deriving DecidableEq, Repr

namespace Traffic

/-- The traffic of connections after bytes have gone out to them. -/
def sending (t : Nat → Traffic) (out : Nat → Bytes) (key : Nat) : Traffic :=
  { t key with went := (t key).went ++ out key }

/-- The traffic of connections after the far end of one has done something more. -/
def arriving (t : Nat → Traffic) (key : Nat) (a : Arrival) (k : Nat) : Traffic :=
  if k = key then { t k with came := (t k).came.receive a } else t k

variable {t : Nat → Traffic} {out : Nat → Bytes} {key k : Nat}

theorem sending_of_silent (h : out key = []) : sending t out key = t key := by
  rw [sending, h, List.append_nil]

theorem went_arriving (t : Nat → Traffic) (key : Nat) (a : Arrival) (k : Nat) :
    (arriving t key a k).went = (t k).went := by
  unfold arriving
  split <;> rfl

theorem came_arriving (t : Nat → Traffic) (key : Nat) (a : Arrival) (k : Nat) :
    (arriving t key a k).came = if k = key then (t k).came.receive a else (t k).came := by
  unfold arriving
  split <;> rfl

theorem arriving_of_ne (h : k ≠ key) (a : Arrival) : arriving t key a k = t k := if_neg h

theorem sent_arriving (t : Nat → Traffic) (key : Nat) (a : Arrival) (k : Nat) :
    (t k).came.sent <+: (arriving t key a k).came.sent := by
  rw [came_arriving]
  split
  · exact Trail.sent_receive _ a
  · exact List.prefix_refl _

end Traffic

/-! ## Lanes -/

/-- What a lane is to convey: its output begins with `lead`, it conveys nothing of the
first bytes `skip`, and `judged` bytes of the rest were read before it opened. -/
structure Account where
  lead : Bytes
  skip : Bytes
  judged : Nat
  deriving DecidableEq, Repr

/-- What is still to be written of an opening to a side. -/
def pending (side : Side) (opening : List (Side × Bytes)) : Bytes :=
  opening.flatMap fun piece => if piece.1 = side then piece.2 else []

theorem pending_cons (side : Side) (piece : Side × Bytes) (rest : List (Side × Bytes)) :
    pending side (piece :: rest) = (if piece.1 = side then piece.2 else []) ++ pending side rest :=
  rfl

theorem pending_remaining (side goal : Side) (bs : Bytes) (rest : List (Side × Bytes)) :
    pending side (Relay.remaining goal bs rest) = pending side ((goal, bs) :: rest) := by
  unfold Relay.remaining
  split
  · rename_i hb
    rw [List.isEmpty_iff.mp hb, pending_cons]
    simp
  · rfl

/-- What an effect of a relay brings to a connection. -/
def RelayEffect.brings (key : Nat) : RelayEffect → Bytes
  | .deliver k bs => if k = key then bs else []
  | .finish _ => []

/-- One direction of a relay, from a side of it: the source was read as far as
`taken`, of which `out` and what is pending were made, and the other side has been
told of the end, if at all, after everything. -/
structure Lane (r : Relay) (source : Side) (a : Account) (tr : Trail) (out : Bytes)
    (told : Prop) (taken : Bytes) : Prop where
  held : Held tr (a.skip ++ taken) (r.party source).socket
  conveyed : out ++ pending source.other r.opening = a.lead ++ taken
  counted : a.judged + (r.flow source).copied = taken.length
  told : told ↔ (r.flow source).ended = true
  ended : (r.flow source).ended = true →
    tr.ended = true ∧ tr.sent = a.skip ++ taken ∧ r.opening = []

namespace Lane

variable {r : Relay} {source : Side} {a : Account} {tr : Trail} {out : Bytes} {told : Prop}
  {taken : Bytes}

theorem receive (h : Lane r source a tr out told taken) (key : Nat) (arrival : Arrival) :
    Lane (r.receive key arrival) source a
      (if key = (r.party source).key then tr.receive arrival else tr) out told taken := by
  have hparty : (r.receive key arrival).party source = (r.party source).receive key arrival := by
    cases source <;> rfl
  have hflow : (r.receive key arrival).flow source = r.flow source := by
    cases source <;> rfl
  refine ⟨?_, h.conveyed, hflow ▸ h.counted, hflow ▸ h.told, ?_⟩
  · rw [hparty, Party.receive]
    by_cases hk : key = (r.party source).key
    · rw [if_pos hk, if_pos hk.symm]
      exact h.held.receive arrival
    · rw [if_neg hk, if_neg fun hk' => hk hk'.symm]
      exact h.held
  · -- what has ended sends nothing more, so all of it stays all of it
    intro he
    obtain ⟨hend, hsent, hopen⟩ := h.ended (hflow ▸ he)
    split
    · obtain ⟨hend', hsent'⟩ := Trail.receive_of_ended hend arrival
      exact ⟨hend', hsent'.trans hsent, hopen⟩
    · exact ⟨hend, hsent, hopen⟩

theorem going_of_opening (h : Lane r source a tr out told taken)
    {piece : Side × Bytes} {rest : List (Side × Bytes)} (opening : r.opening = piece :: rest) :
    (r.flow source).ended = false := by
  cases he : (r.flow source).ended with
  | false => rfl
  | true =>
    obtain ⟨-, -, hopen⟩ := h.ended he
    rw [opening] at hopen
    cases hopen

theorem write (h : Lane r source a tr out told taken) {rest left : List (Side × Bytes)}
    {side : Side} {bs : Bytes} (opening : r.opening = (side, bs) :: rest) (more : Bytes)
    (moved : more ++ pending source.other left = pending source.other ((side, bs) :: rest)) :
    Lane { r with opening := left } source a tr (out ++ more) told taken := by
  have going := h.going_of_opening opening
  have hflow : ({ r with opening := left } : Relay).flow source = r.flow source := by
    cases source <;> rfl
  have hparty : ({ r with opening := left } : Relay).party source = r.party source := by
    cases source <;> rfl
  refine ⟨hparty ▸ h.held, ?_, hflow ▸ h.counted, hflow ▸ h.told, ?_⟩
  · show out ++ more ++ pending source.other left = a.lead ++ taken
    rw [List.append_assoc, moved, ← opening]
    exact h.conveyed
  · intro he
    rw [hflow, going] at he
    cases he

theorem copy (h : Lane r source a tr out told taken) (n : Nat) (opened : r.opening = [])
    (going : (r.flow source).ended = false) :
    Lane (r.copied source n) source a tr (out ++ (r.party source).socket.unread.take n) told
      (taken ++ (r.party source).socket.unread.take n) := by
  have hread := h.held.take n
  rw [List.append_assoc] at hread
  have hconv := h.conveyed
  have hcount := h.counted
  simp only [opened, pending, List.flatMap_nil, List.append_nil] at hconv
  have hflow : ((r.copied source n).flow source).ended = (r.flow source).ended := by
    simp [Relay.copied, Relay.flow_setFlow]
  refine ⟨?_, ?_, ?_, hflow ▸ h.told, ?_⟩
  · simp only [Relay.copied, Relay.party_setFlow, Relay.party_setParty, if_true]
    exact hread
  · simp only [Relay.copied, Relay.opening_setFlow, Relay.opening_setParty, opened, pending,
      List.flatMap_nil, List.append_nil, hconv, List.append_assoc]
  · simp only [Relay.copied, Relay.flow_setFlow, if_true, List.length_append]
    omega
  · intro he
    rw [hflow, going] at he
    cases he

theorem copy_other (h : Lane r source a tr out told taken) (n : Nat) :
    Lane (r.copied source.other n) source a tr out told taken := by
  have hne : source ≠ source.other := (Side.other_ne source).symm
  have hparty : (r.copied source.other n).party source = r.party source := by
    simp [Relay.copied, Relay.party_setParty, hne]
  have hflow : (r.copied source.other n).flow source = r.flow source := by
    simp [Relay.copied, Relay.flow_setFlow, hne]
  have hopen : (r.copied source.other n).opening = r.opening := by
    simp [Relay.copied]
  exact ⟨hparty ▸ h.held, hopen ▸ h.conveyed, hflow ▸ h.counted, hflow ▸ h.told,
    fun he => hopen ▸ h.ended (hflow ▸ he)⟩

/-- The other side is told of the end when all is read and written. -/
theorem conclude (h : Lane r source a tr out told taken) (opened : r.opening = [])
    (sound : (r.party source).socket.broken = false)
    (ended : (r.party source).socket.remoteEnded = true)
    (read : (r.party source).socket.unread = []) :
    Lane (r.concluded source) source a tr out True taken := by
  have hall := h.held.all sound
  rw [read, List.append_nil] at hall
  refine ⟨by simpa [Relay.concluded] using h.held, by simpa [Relay.concluded] using h.conveyed,
    by simpa [Relay.concluded, Relay.flow_setFlow] using h.counted,
    by simp [Relay.concluded, Relay.flow_setFlow], fun _ => ?_⟩
  exact ⟨h.held.ended ▸ ended, hall.symm, by simpa [Relay.concluded] using opened⟩

theorem conclude_other (h : Lane r source a tr out told taken) :
    Lane (r.concluded source.other) source a tr out told taken := by
  have hne : source ≠ source.other := (Side.other_ne source).symm
  have hflow : (r.concluded source.other).flow source = r.flow source := by
    simp [Relay.concluded, Relay.flow_setFlow, hne]
  exact ⟨by simpa [Relay.concluded] using h.held, by simpa [Relay.concluded] using h.conveyed,
    hflow ▸ h.counted, hflow ▸ h.told, fun he => by
      simpa [Relay.concluded] using h.ended (hflow ▸ he)⟩

/-- What is written of the opening is, to the far end of a lane, the front of what was
pending on it. -/
theorem moved_of_write (r : Relay) (source side : Side) (n : Nat) (bs : Bytes)
    (rest : List (Side × Bytes)) (apart : (r.party source).key ≠ (r.party source.other).key) :
    (if (r.party side).key = (r.party source.other).key then bs.take n else []) ++
        pending source.other (Relay.remaining side (bs.drop n) rest) =
      pending source.other ((side, bs) :: rest) := by
  rw [pending_remaining, pending_cons, pending_cons]
  by_cases hside : side = source.other
  · rw [hside, if_pos rfl, if_pos rfl, if_pos rfl, ← List.append_assoc, List.take_append_drop]
  · -- the piece goes the other way, and the two connections are not one
    have hsrc : side = source := by
      cases side <;> cases source <;> first | rfl | exact absurd rfl hside
    rw [hsrc, if_neg apart, if_neg (Side.other_ne source).symm, if_neg (Side.other_ne source).symm]
    rfl

/-- Every step of a relay keeps its lanes. -/
theorem step (h : Lane r source a tr out told taken)
    (apart : (r.party source).key ≠ (r.party source.other).key) {e : RelayEvent} {r' : Relay}
    {es : List RelayEffect} (hs : r.step e = .goesOn r' es) :
    ∃ taken', Lane r' source a tr (out ++ es.flatMap (·.brings (r.party source.other).key))
      (told ∨ .finish (r.party source.other).key ∈ es) taken' := by
  have hm := Relay.move_step (r := r) e
  rw [hs] at hm
  cases hm with
  | stay => exact ⟨taken, by simpa using h⟩
  | skip n opening =>
    rename_i side rest
    refine ⟨taken, ?_⟩
    have hl : Lane { r with opening := rest } source a tr (out ++ []) told taken :=
      h.write opening [] (by rw [pending_cons]; simp)
    simpa using hl
  | write opening _ _ _ =>
    rename_i side bs rest n _ _ _
    refine ⟨taken, ?_⟩
    simp only [List.flatMap_cons, List.flatMap_nil, List.append_nil, RelayEffect.brings,
      List.mem_singleton, reduceCtorEq, or_false]
    exact h.write opening _ (moved_of_write r source side n bs rest apart)
  | copy opened going sound _ there =>
    rename_i src n _
    simp only [List.flatMap_cons, List.flatMap_nil, List.append_nil, RelayEffect.brings,
      List.mem_singleton, reduceCtorEq, or_false]
    -- the lane of the side that is copied from moves, the other does not
    by_cases hsrc : src = source
    · subst hsrc
      rw [if_pos rfl]
      exact ⟨_, h.copy n opened going⟩
    · obtain rfl : src = source.other := Side.ne_iff.mp hsrc
      have hback : source.other.other = source := by cases source <;> rfl
      rw [hback, if_neg apart, List.append_nil]
      exact ⟨taken, h.copy_other n⟩
  | conclude opened going sound ended read =>
    rename_i src
    simp only [List.flatMap_cons, List.flatMap_nil, List.append_nil, RelayEffect.brings,
      List.mem_singleton, RelayEffect.finish.injEq]
    by_cases hsrc : src = source
    · subst hsrc
      refine ⟨taken, ?_⟩
      simpa using h.conclude opened sound ended read
    · obtain rfl : src = source.other := Side.ne_iff.mp hsrc
      have hback : source.other.other = source := by cases source <;> rfl
      have hfin : ¬ (r.party source.other).key = (r.party source).key := fun hk => apart hk.symm
      rw [hback]
      exact ⟨taken, by simpa [hfin] using h.conclude_other⟩

end Lane

end ReverseTunnel

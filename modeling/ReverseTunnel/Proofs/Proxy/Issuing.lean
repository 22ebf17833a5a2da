import ReverseTunnel.Proofs.Proxy.Lives
import ReverseTunnel.Proofs.Session.IdCycle

/-!
The session ids of an exchange.

All tables draw from one source, so the ids that are issued are those of its circle,
in order and wherever they are drawn (`ids_eq`). Every user that waits was registered
under the id drawn then (`registered`). As long as fewer ids are drawn than there are
while any one user waits, no two users wait under one id at any tables (`eq_of_waits`),
and the next id is nobody's (`ne_next_of_waits`).
-/

namespace ReverseTunnel.Proxy

open Session

/-- The session that an effect announces. -/
def TableEffect.announced? : TableEffect → Option UInt32
  | .announce session => some session
  | .relay _ => none
  | .drop _ => none
  | .count _ => none

/-- The sessions that effects announce. -/
def announced (es : List TableEffect) : List UInt32 := es.filterMap TableEffect.announced?

theorem mem_announced {es : List TableEffect} {session : UInt32} :
    session ∈ announced es ↔ .announce session ∈ es := by
  simp only [announced, List.mem_filterMap]
  constructor
  · rintro ⟨e, he, hs⟩
    cases e with
    | announce s =>
      cases hs
      exact he
    | relay _ | drop _ | count _ => cases hs
  · intro he
    exact ⟨_, he, rfl⟩

theorem announced_of_none {es : List TableEffect} (h : ∀ s, .announce s ∉ es) :
    announced es = [] := by
  rw [List.eq_nil_iff_forall_not_mem]
  intro s hs
  exact h s (mem_announced.mp hs)

theorem Table.draws_of_move {w : Surroundings} {t : Table} {e : TableEvent} {r : TableStep}
    (h : Move w t e r) :
    (r.ids = w.ids ∧ announced r.effects = []) ∨
      (r.ids = w.ids.draw.2 ∧ announced r.effects = [w.ids.next]) := by
  have hdisplaced : announced (displaced w.ids.next t.waiting) = [] :=
    announced_of_none (by simp [displaced])
  cases h with
  | stay | accept | receive | read | lose | pair | stale | close | abort =>
    exact .inl ⟨rfl, rfl⟩
  | register =>
    refine .inr ⟨rfl, ?_⟩
    show announced (displaced _ _ ++ _) = _
    rw [announced, List.filterMap_append]
    exact congrArg (· ++ _) hdisplaced
  | refuse =>
    refine .inr ⟨rfl, ?_⟩
    show announced (displaced _ _ ++ _) = _
    rw [announced, List.filterMap_append]
    exact congrArg (· ++ _) hdisplaced
  | relay => exact .inl ⟨rfl, announced_of_none (by simp)⟩
  | evict ttl =>
    refine .inl ⟨rfl, announced_of_none fun s hs => ?_⟩
    rcases mem_effects_evict hs with ⟨_, h⟩ | ⟨_, _, h⟩ <;> cases h
  | clear => exact .inl ⟨rfl, announced_of_none (by simp [Table.clear])⟩

namespace Exchange.Run

variable {ι : Type} [DecidableEq ι] {delays : ι → Nat} {first : UInt32}

/-- The session ids that were issued before a moment, in order. -/
def issued (r : Run delays first) (n : Nat) : List UInt32 := announced (r.effects n)

/-- How many session ids were drawn before a moment. -/
def drawn (r : Run delays first) (n : Nat) : Nat := (r.issued n).length

/-- The id that was drawn after a number of others. -/
def idAt (_ : Run delays first) (k : Nat) : UInt32 := ((IdSource.startingAt first).after k).next

/-- While any one user waits, fewer ids are drawn than there are. -/
def Unhurried (r : Run delays first) : Prop :=
  ∀ i user session m n, m ≤ n → (r.table i m).Waits user session →
    (r.table i n).Waits user session → r.drawn (n + 1) < r.drawn m + maxId

variable {r : Run delays first} {i j : ι} {user other : Nat} {session : UInt32}

theorem issued_succ (n : Nat) : r.issued (n + 1) = r.issued n ++ announced (r.effectsAt n) := by
  simp [issued, announced, Course.effects]

theorem draws_at (n : Nat) :
    ((r.state (n + 1)).ids = (r.state n).ids ∧ announced (r.effectsAt n) = []) ∨
      ((r.state (n + 1)).ids = (r.state n).ids.draw.2 ∧
        announced (r.effectsAt n) = [(r.state n).ids.next]) := by
  show ((Exchange.step (r.state n) (r.happens n)).1.ids = _ ∧
    announced (Exchange.step (r.state n) (r.happens n)).2 = _) ∨ _
  cases ho : r.happens n with
  | act i accepts task =>
    simp only [Course.state, Course.effectsAt, ho]
    exact Table.draws_of_move (move_turn (r.wellFormed n) i accepts task)
  | comeIn | receive | advance => exact .inl ⟨rfl, rfl⟩

/-- The source is as far in its circle as ids were drawn from it. -/
theorem ids_eq (n : Nat) : (r.state n).ids = (IdSource.startingAt first).after (r.drawn n) := by
  induction n with
  | zero => rfl
  | succ n ih =>
    rw [drawn, issued_succ]
    rcases draws_at (r := r) n with ⟨hids, hann⟩ | ⟨hids, hann⟩
    · rw [hids, hann, List.append_nil]
      exact ih
    · rw [hids, hann, List.length_append, ih]
      rfl

theorem drawn_le_succ (n : Nat) : r.drawn n ≤ r.drawn (n + 1) := by
  rw [drawn, drawn, issued_succ, List.length_append]
  exact Nat.le_add_right _ _

theorem drawn_le {m n : Nat} (hmn : m ≤ n) : r.drawn m ≤ r.drawn n := by
  induction hmn with
  | refl => exact Nat.le_refl _
  | step _ ih => exact Nat.le_trans ih (drawn_le_succ _)

theorem drawn_lt {m n : Nat} (hdrawn : r.drawn (m + 1) = r.drawn m + 1) (hmn : m < n) :
    r.drawn m < r.drawn n := by
  have hle : r.drawn (m + 1) ≤ r.drawn n := drawn_le hmn
  omega

theorem draw_of_announce {n : Nat} (h : .announce session ∈ r.effectsAt n) :
    r.drawn (n + 1) = r.drawn n + 1 ∧ session = r.idAt (r.drawn n) := by
  have hmem := mem_announced.mpr h
  -- a step that announces draws, and announces nothing but the id drawn
  rcases draws_at (r := r) n with ⟨-, hann⟩ | ⟨-, hann⟩
  · rw [hann] at hmem
    cases hmem
  · rw [hann] at hmem
    refine ⟨?_, ?_⟩
    · rw [drawn, issued_succ, hann, List.length_append]
      rfl
    · rw [List.mem_singleton.mp hmem, ids_eq n]
      rfl

theorem registered {n : Nat} (h : (r.table i n).Waits user session) :
    ∃ m, m < n ∧ Registers (r.state m) (r.happens m) i user session ∧
      (r.table i (m + 1)).Waits user session := by
  induction n with
  | zero =>
    obtain ⟨v, hv, -⟩ := h
    cases hv
  | succ n ih =>
    rcases waits_of_step (r.wellFormed n) h with hw | hreg
    · obtain ⟨m, hmn, hreg, hw'⟩ := ih hw
      exact ⟨m, Nat.lt_succ_of_lt hmn, hreg, hw'⟩
    · exact ⟨n, Nat.lt_succ_self n, hreg, h⟩

/-- A user waits under the id that was drawn when it was registered, and fewer ids than
there are were drawn since. -/
theorem drawn_of_waits (calm : r.Unhurried) {n : Nat} (h : (r.table i n).Waits user session) :
    ∃ m, m < n ∧ Registers (r.state m) (r.happens m) i user session ∧
      session = r.idAt (r.drawn m) ∧ r.drawn (m + 1) = r.drawn m + 1 ∧
      r.drawn (n + 1) ≤ r.drawn m + maxId := by
  obtain ⟨m, hmn, hreg, hw⟩ := registered h
  obtain ⟨hdrawn, hid⟩ := draw_of_announce (r := r) (n := m) hreg.announced
  refine ⟨m, hmn, hreg, hid, hdrawn, ?_⟩
  have := calm i user session (m + 1) n hmn hw h
  omega

theorem idAt_ne (r : Run delays first) {k l : Nat} (hkl : k < l) (hl : l < k + maxId) :
    r.idAt k ≠ r.idAt l :=
  IdSource.next_after_ne (IdSource.valid_startingAt first) hkl hl

theorem unhurried_of_drawn_lt (h : ∀ n, r.drawn n < maxId) : r.Unhurried := by
  intro i user session m n _ _ _
  exact Nat.lt_of_lt_of_le (h (n + 1)) (Nat.le_add_left _ _)

/-- The next id to be drawn in an unhurried run is not one under which a user waits. -/
theorem ne_next_of_waits (calm : r.Unhurried) {n : Nat}
    (hdraw : r.drawn (n + 1) = r.drawn n + 1) (h : (r.table i n).Waits user session) :
    session ≠ r.idAt (r.drawn n) := by
  obtain ⟨m, hmn, -, rfl, hdrawn, hle⟩ := drawn_of_waits calm h
  exact r.idAt_ne (drawn_lt hdrawn hmn) (by omega)

theorem eq_of_registers {n : Nat} {s s' : UInt32}
    (h : Registers (r.state n) (r.happens n) i user s)
    (h' : Registers (r.state n) (r.happens n) j other s') : i = j ∧ user = other := by
  obtain ⟨a, ho | ho⟩ := h.work <;> obtain ⟨a', ho' | ho'⟩ := h'.work <;>
    rw [ho] at ho' <;> cases ho' <;> exact ⟨rfl, rfl⟩

/-- No two users wait under one id in an unhurried run, at whatever tables. -/
theorem eq_of_waits (calm : r.Unhurried) {n : Nat} (h : (r.table i n).Waits user session)
    (h' : (r.table j n).Waits other session) : i = j ∧ user = other := by
  obtain ⟨m, hmn, hreg, hid, hdrawn, hle⟩ := drawn_of_waits calm h
  obtain ⟨m', hmn', hreg', hid', hdrawn', hle'⟩ := drawn_of_waits calm h'
  have hm : r.drawn m < r.drawn (n + 1) := drawn_lt hdrawn (Nat.lt_succ_of_lt hmn)
  have hm' : r.drawn m' < r.drawn (n + 1) := drawn_lt hdrawn' (Nat.lt_succ_of_lt hmn')
  -- ids drawn at different moments differ within one turn of the circle
  rcases Nat.lt_trichotomy m m' with hlt | rfl | hlt
  · exact absurd (hid.symm.trans hid') (r.idAt_ne (drawn_lt hdrawn hlt) (by omega))
  · exact eq_of_registers hreg hreg'
  · exact absurd (hid'.symm.trans hid) (r.idAt_ne (drawn_lt hdrawn' hlt) (by omega))

theorem issued_of_waits {n : Nat} (h : (r.table i n).Waits user session) :
    session ∈ r.issued n ∧ 1 ≤ session.toNat ∧ session.toNat ≤ maxId := by
  obtain ⟨m, hmn, hreg, -⟩ := registered h
  refine ⟨?_, ?_⟩
  · have hm : session ∈ r.issued (m + 1) := by
      rw [issued_succ]
      exact List.mem_append_right _ (mem_announced.mpr hreg.announced)
    have hgrow : ∀ k, m + 1 ≤ k → session ∈ r.issued k := by
      intro k hk
      induction hk with
      | refl => exact hm
      | step _ ih =>
        rw [issued_succ]
        exact List.mem_append_left _ ih
    exact hgrow n hmn
  · have hvalid := IdSource.valid_after (IdSource.valid_startingAt first) (r.drawn m)
    rw [hreg.next, ids_eq m]
    exact ⟨hvalid.pos, hvalid.le⟩

end Exchange.Run

end ReverseTunnel.Proxy

import ReverseTunnel.Proofs.Proxy.Issuing

/-!
Pairing is safe.

What is proved (`pairing_is_safe`):
1. A data connection that presents the id of a session is paired with the user that waits under
   this id at its table, if there is one, and else it is dropped and nothing else changes
   (`look_of_waits`, `look_of_nobody`). There is no other way to be paired.
2. No connection is ever in two pairs, and whoever was evicted or cleared never waits or is
   paired again.
3. No registration touches a user that waits, and no two users wait under one id, at whatever
   tables.

What is assumed: while any one user waits, fewer ids are drawn than there are (`Unhurried`).

What is not said: which of two data connections that present one id gets the user. It is the one
that is looked at first, whoever sent it.
-/

namespace ReverseTunnel.Proxy

open Session

namespace Table

variable {w : Surroundings} {t : Table} {e : TableEvent} {r : TableStep} {data user : Nat}
  {session : UInt32}

theorem look_of_presents (h : t.WellFormed) (hp : t.Presents data session) :
    ∃ (p : Party) (rest : Bytes), p.key = data ∧
      t.look w data = ({ t with judging := dismiss data t.judging } : Table).pair w p session rest := by
  obtain ⟨j, hj, rfl, sound, hprefix⟩ := hp
  obtain ⟨rest, seen, s, hlook⟩ := look_of_handshake hprefix
  refine ⟨{ j.party with socket := s }, rest, rfl, ?_⟩
  have hfind : t.judging.find? (·.party.key = j.party.key) = some j :=
    Keyed.find?_of_mem (f := fun j : Judged => j.party.key) h.judging hj
  simp only [look, hfind, sound, Bool.false_eq_true, if_false, hlook, settle]

theorem look_of_waits (h : t.WellFormed) (hp : t.Presents data session)
    (hw : t.Waits user session) :
    ∃ p : Paired, p.session = session ∧ p.relay.front.key = user ∧ p.relay.back.key = data ∧
      t.look w data =
        { table := { t with
            judging := dismiss data t.judging
            waiting := others session t.waiting
            paired := t.paired ++ [p] }
          ids := w.ids
          effects := [.count ⟨.dataConnections, 1⟩, .count ⟨.sessionsPaired, 1⟩] } := by
  obtain ⟨p, rest, rfl, hlook⟩ := look_of_presents (w := w) h hp
  obtain ⟨v, hv, rfl, rfl⟩ := hw
  refine ⟨join v p rest, rfl, rfl, rfl, ?_⟩
  have hfind : t.waiting.find? (·.session = v.session) = some v :=
    Keyed.find?_of_mem (f := Waiting.session) h.sessions hv
  rw [hlook]
  simp only [pair, hfind]

theorem look_of_nobody (h : t.WellFormed) (hp : t.Presents data session)
    (hw : ∀ user, ¬ t.Waits user session) :
    t.look w data =
      { table := { t with judging := dismiss data t.judging }
        ids := w.ids
        effects := [.count ⟨.dataConnections, 1⟩, .count ⟨.staleDataConnections, 1⟩,
          .drop data] } := by
  obtain ⟨p, rest, rfl, hlook⟩ := look_of_presents (w := w) h hp
  have hfind : t.waiting.find? (·.session = session) = none := by
    rw [List.find?_eq_none]
    intro v hv hs
    exact hw v.party.key ⟨v, hv, rfl, by simpa using hs⟩
  rw [hlook]
  simp only [pair, hfind]

/-- A registration under an id of nobody leaves everybody who waits where they are, and
drops at most the user that is registered. -/
theorem waiting_of_announce (h : Move w t e r) (ha : .announce session ∈ r.effects)
    (hnew : ∀ v ∈ t.waiting, v.session ≠ w.ids.next) :
    t.waiting <+: r.table.waiting ∧ ∀ k, .drop k ∈ r.effects → t.Judges k := by
  have hothers : others w.ids.next t.waiting = t.waiting :=
    Keyed.filter_ne_self (f := Waiting.session) hnew
  have hdisplaced : displaced w.ids.next t.waiting = [] := by
    rw [displaced, List.map_eq_nil_iff, List.filter_eq_nil_iff]
    intro v hv
    simpa using hnew v hv
  cases h with
  | register split taken _ =>
    simp only [hothers, hdisplaced]
    exact ⟨List.prefix_append _ _, by simp⟩
  | refuse split taken _ =>
    simp only [hothers, hdisplaced]
    refine ⟨List.prefix_refl _, ?_⟩
    intro k hk
    obtain rfl : k = _ := by simpa using hk
    rw [taken.key]
    exact judges_of_split split
  | evict ttl =>
    rcases mem_effects_evict ha with ⟨_, h⟩ | ⟨_, _, h⟩ <;> cases h
  | stay | accept | receive | read | lose | pair | stale | clear | relay | close | abort =>
    simp [Table.clear] at ha

end Table

namespace Exchange.Run

variable {ι : Type} [DecidableEq ι] {delays : ι → Nat} {first : UInt32} {r : Run delays first}
  {i j : ι} {user data : Nat} {session : UInt32} {n : Nat}

/-! ## Registering -/

/-- No registration replaces or removes a user that waits. -/
theorem waiting_of_announce (calm : r.Unhurried) (ha : .announce session ∈ r.effectsAt n) (j : ι) :
    (r.table j n).waiting <+: (r.table j (n + 1)).waiting ∧
      ∀ v ∈ (r.table j n).waiting, .drop v.party.key ∉ r.effectsAt n := by
  have hwf := r.wellFormed n
  obtain ⟨hdraw, -⟩ := draw_of_announce ha
  cases ho : r.happens n with
  | comeIn | receive | advance =>
    rw [Course.effectsAt, ho] at ha
    cases ha
  | act i accepts task =>
    have hnew : ∀ v ∈ (r.table i n).waiting, v.session ≠ (r.state n).ids.next := by
      intro v hv
      rw [ids_eq n]
      exact ne_next_of_waits calm hdraw ⟨v, hv, rfl, rfl⟩
    rw [effectsAt_of_act ho] at ha ⊢
    obtain ⟨hkeep, hdrop⟩ := Table.waiting_of_announce (move_turn hwf i accepts task) ha hnew
    have hsafe : ∀ v ∈ (r.table j n).waiting,
        .drop v.party.key ∉ ((r.state n).turn i accepts task).effects := by
      intro v hv hmem
      have hw : (r.table j n).Waits v.party.key v.session := ⟨v, hv, rfl, rfl⟩
      have hji := hdrop _ hmem
      obtain rfl := hwf.apart j i _ hw.mem_keys hji.mem_keys
      exact (hwf.tables j).not_waits_of_judges hji hw
    refine ⟨?_, hsafe⟩
    by_cases hj : j = i
    · subst hj
      rw [table_succ_of_act ho]
      exact hkeep
    · exact (table_succ_of_ne ho hj).symm ▸ List.prefix_refl _

/-! ## Binding -/

/-- A step pairs a data connection with a user that waited, whose entry is gone, and
changes nothing else. -/
structure PairedAt (r : Run delays first) (n : Nat) (i : ι) (session : UInt32)
    (user data : Nat) : Prop where
  here : ∃ p : Paired, p.session = session ∧ p.relay.front.key = user ∧
    p.relay.back.key = data ∧
    r.table i (n + 1) = { r.table i n with
      judging := Table.dismiss data (r.table i n).judging
      waiting := Table.others session (r.table i n).waiting
      paired := (r.table i n).paired ++ [p] }
  elsewhere : ∀ j, j ≠ i → r.table j (n + 1) = r.table j n
  effects : r.effectsAt n = [.count ⟨.dataConnections, 1⟩, .count ⟨.sessionsPaired, 1⟩]

/-- A step drops a data connection and changes nothing else. -/
structure DroppedAt (r : Run delays first) (n : Nat) (i : ι) (data : Nat) : Prop where
  here : r.table i (n + 1) = { r.table i n with
    judging := Table.dismiss data (r.table i n).judging }
  elsewhere : ∀ j, j ≠ i → r.table j (n + 1) = r.table j n
  effects : r.effectsAt n =
    [.count ⟨.dataConnections, 1⟩, .count ⟨.staleDataConnections, 1⟩, .drop data]

theorem pairedAt_of_waits {accepts : Bool} (ho : r.happens n = .act i accepts (.look data))
    (hp : (r.table i n).Presents data session) (hw : (r.table i n).Waits user session) :
    r.PairedAt n i session user data := by
  obtain ⟨p, hs, hu, hd, hlook⟩ :=
    Table.look_of_waits (w := (r.state n).around accepts) ((r.wellFormed n).tables i) hp hw
  have hturn : (r.state n).turn i accepts (.look data) = _ := hlook
  refine ⟨⟨p, hs, hu, hd, ?_⟩, fun j hj => table_succ_of_ne ho hj, ?_⟩
  · rw [table_succ_of_act ho, hturn]
  · rw [effectsAt_of_act ho, hturn]

theorem droppedAt_of_nobody {accepts : Bool} (ho : r.happens n = .act i accepts (.look data))
    (hp : (r.table i n).Presents data session)
    (hw : ∀ user, ¬ (r.table i n).Waits user session) : r.DroppedAt n i data := by
  have hturn : (r.state n).turn i accepts (.look data) = _ :=
    Table.look_of_nobody ((r.wellFormed n).tables i) hp hw
  refine ⟨?_, fun j hj => table_succ_of_ne ho hj, ?_⟩
  · rw [table_succ_of_act ho, hturn]
  · rw [effectsAt_of_act ho, hturn]

theorem PairedAt.pairs (h : r.PairedAt n i session user data) :
    (r.table i (n + 1)).Pairs session user data := by
  obtain ⟨p, hs, hu, hd, htable⟩ := h.here
  rw [htable]
  exact ⟨p, List.mem_append_right _ (List.mem_singleton_self _), hs, hu, hd⟩

theorem PairedAt.not_waits (h : r.PairedAt n i session user data) (other : Nat) :
    ¬ (r.table i (n + 1)).Waits other session := by
  obtain ⟨p, -, -, -, htable⟩ := h.here
  rw [htable]
  rintro ⟨v, hv, -, hs⟩
  exact (Table.session_of_mem_others hv).2 hs

/-- A pair comes about when its data connection presents the id of a user that waits,
and in no other way. -/
theorem bound_of_pairs (hp : (r.table i (n + 1)).Pairs session user data) :
    (r.table i n).Pairs session user data ∨
      ((∃ accepts, r.happens n = .act i accepts (.look data)) ∧
        (r.table i n).Presents data session ∧ (r.table i n).Waits user session) :=
  (pairs_of_step (r.wellFormed n) hp).imp_right fun h => ⟨h.work, h.presents, h.waits⟩

theorem waits_of_pairs (hp : (r.table i n).Pairs session user data) :
    ∃ m, m < n ∧ (r.table i m).Waits user session := by
  induction n with
  | zero =>
    obtain ⟨p, hp, -⟩ := hp
    cases hp
  | succ n ih =>
    rcases bound_of_pairs hp with hp | ⟨-, -, hw⟩
    · obtain ⟨m, hmn, hw⟩ := ih hp
      exact ⟨m, Nat.lt_succ_of_lt hmn, hw⟩
    · exact ⟨n, Nat.lt_succ_self n, hw⟩

theorem pair_unique_of_le {m : Nat} {user' data' : Nat} {session' : UInt32} (hmn : m ≤ n)
    (h : (r.table i m).Pairs session user data) (h' : (r.table j n).Pairs session' user' data')
    (hshare : user = user' ∨ data = data') :
    i = j ∧ session = session' ∧ user = user' ∧ data = data' := by
  have hwf := r.wellFormed n
  obtain ⟨key, hk, hk'⟩ : ∃ key, (key = user ∨ key = data) ∧ (key = user' ∨ key = data') := by
    rcases hshare with rfl | rfl
    · exact ⟨user, .inl rfl, .inl rfl⟩
    · exact ⟨data, .inr rfl, .inr rfl⟩
  have hmem' : key ∈ (r.table j n).keys := h'.mem_keys hk'
  rcases paired_or_gone hmn h with h | ⟨hu, hd⟩
  · -- the earlier pair is still there, and no connection is in two pairs at once
    obtain rfl := hwf.apart i j key (h.mem_keys hk) hmem'
    obtain ⟨p, hp, rfl, rfl, rfl⟩ := h
    obtain ⟨q, hq, rfl, rfl, rfl⟩ := h'
    obtain rfl := (hwf.tables i).pair_unique hp hq (k := key)
      (by simpa [Table.pairKeys] using hk) (by simpa [Table.pairKeys] using hk')
    exact ⟨rfl, rfl, rfl, rfl⟩
  · -- the shared connection is gone, so it is in no pair any more
    rcases hk with rfl | rfl
    · exact absurd hmem' (hu.2 j)
    · exact absurd hmem' (hd.2 j)

theorem pair_unique {m : Nat} {user' data' : Nat} {session' : UInt32}
    (h : (r.table i m).Pairs session user data) (h' : (r.table j n).Pairs session' user' data')
    (hshare : user = user' ∨ data = data') :
    i = j ∧ session = session' ∧ user = user' ∧ data = data' := by
  rcases Nat.le_total m n with hmn | hnm
  · exact pair_unique_of_le hmn h h' hshare
  · obtain ⟨rfl, rfl, rfl, rfl⟩ := pair_unique_of_le hnm h' h (hshare.imp Eq.symm Eq.symm)
    exact ⟨rfl, rfl, rfl, rfl⟩

/-- A data connection that presents a session is paired exactly if a user waits for it. -/
theorem pairs_iff_waits {accepts : Bool} (ho : r.happens n = .act i accepts (.look data))
    (hp : (r.table i n).Presents data session) :
    (∃ user, (r.table i (n + 1)).Pairs session user data) ↔
      ∃ user, (r.table i n).Waits user session := by
  constructor
  · rintro ⟨user, hpairs⟩
    rcases bound_of_pairs hpairs with hpairs | ⟨-, -, hw⟩
    · -- it is judged, so it was not paired before
      have hne := ((r.wellFormed n).tables i).ne_of_pairs hpairs (.inl hp.judges)
      exact absurd rfl hne.2
    · exact ⟨user, hw⟩
  · rintro ⟨user, hw⟩
    exact ⟨user, (pairedAt_of_waits ho hp hw).pairs⟩

/-! ## Leaving without a pair -/

theorem gone_of_waits (hw : (r.table i n).Waits user session)
    (hleft : ¬ (r.table i (n + 1)).Waits user session)
    (hlook : ∀ accepts data, r.happens n ≠ .act i accepts (.look data)) :
    (r.state (n + 1)).Gone user := by
  have hwf := r.wellFormed n
  refine ⟨Nat.lt_of_lt_of_le (hwf.known i _ hw.mem_keys) (nextKey_le_step _ _), ?_⟩
  intro j hmem
  have hji : j = i := by
    rcases keys_of_step hwf hmem with hmem | ⟨rfl, -⟩
    · exact hwf.apart j i _ hmem hw.mem_keys
    · exact absurd (hwf.known i _ hw.mem_keys) (Nat.lt_irrefl _)
  subst hji
  have hnot : ¬ (r.table j n).Judges user := fun hj => (hwf.tables j).not_waits_of_judges hj hw
  have hfree : ∀ {s u d}, (r.table j n).Pairs s u d → user ≠ u ∧ user ≠ d := fun hp =>
    (hwf.tables j).ne_of_pairs hp (.inr ⟨session, hw⟩)
  -- still at its table it would wait on, be judged again, or have been looked for
  rcases Table.mem_keys.mp hmem with hj | ⟨s, hw'⟩ | ⟨s, u, d, hp, hk⟩
  · rcases judges_of_step hwf hj with hj | ⟨rfl, -⟩
    · exact hnot hj
    · exact Nat.lt_irrefl _ (hwf.known j _ hw.mem_keys)
  · rcases waits_of_step hwf hw' with hw' | hreg
    · obtain ⟨v, hv, hk, rfl⟩ := hw
      obtain ⟨v', hv', hk', rfl⟩ := hw'
      obtain rfl := (hwf.tables j).waiting_unique hv hv' (hk.trans hk'.symm)
      exact hleft ‹_›
    · exact hnot hreg.judged
  · rcases pairs_of_step hwf hp with hp | hbind
    · exact hk.elim (hfree hp).1 (hfree hp).2
    · obtain ⟨accepts, ho⟩ := hbind.work
      exact hlook accepts d ho

theorem not_paired_of_gone {m : Nat} (hmn : m ≤ n) (hg : (r.state m).Gone user) (j : ι)
    (s : UInt32) (d : Nat) :
    ¬ (r.table j n).Waits user s ∧ ¬ (r.table j n).Pairs s user d := by
  have hgone := gone hmn hg
  exact ⟨fun hw => hgone.2 j hw.mem_keys, fun hp => hgone.2 j (hp.mem_keys (.inl rfl))⟩

/-! ## Safety -/

/-- Pairing is safe, whatever the tables, their connections and the order of events: no
registration replaces or removes another user that waits; no two users wait under one
id, at one table or two, and none under an id that was not issued; a data connection
is paired exactly if a user waits at its table under the id that it presents, and then
with this user, whose entry is gone, and else it is dropped, and nothing else changes;
nobody is paired in any other way, or twice, or after being evicted or cleared. -/
theorem pairing_is_safe (r : Run delays first) (calm : r.Unhurried) :
    (∀ n session, .announce session ∈ r.effectsAt n → ∀ j,
      (r.table j n).waiting <+: (r.table j (n + 1)).waiting ∧
      ∀ v ∈ (r.table j n).waiting, .drop v.party.key ∉ r.effectsAt n) ∧
    (∀ n i user session, (r.table i n).Waits user session →
      session ∈ r.issued n ∧ 1 ≤ session.toNat ∧ session.toNat ≤ maxId ∧
      ∀ j other, (r.table j n).Waits other session → i = j ∧ user = other) ∧
    (∀ n i accepts data session, r.happens n = .act i accepts (.look data) →
      (r.table i n).Presents data session →
      ((∃ user, (r.table i (n + 1)).Pairs session user data) ↔
        ∃ user, (r.table i n).Waits user session) ∧
      (∀ user, (r.table i n).Waits user session → r.PairedAt n i session user data ∧
        ∀ other, ¬ (r.table i (n + 1)).Waits other session) ∧
      ((∀ user, ¬ (r.table i n).Waits user session) → r.DroppedAt n i data)) ∧
    (∀ n i session user data, (r.table i (n + 1)).Pairs session user data →
      (r.table i n).Pairs session user data ∨
        ((∃ accepts, r.happens n = .act i accepts (.look data)) ∧
          (r.table i n).Presents data session ∧ (r.table i n).Waits user session)) ∧
    (∀ m n i j session session' user user' data data',
      (r.table i m).Pairs session user data → (r.table j n).Pairs session' user' data' →
      (user = user' ∨ data = data') →
      i = j ∧ session = session' ∧ user = user' ∧ data = data') ∧
    (∀ n i accepts user session,
      (r.happens n = .act i accepts .clear ∨ ∃ ttl, r.happens n = .act i accepts (.evict ttl)) →
      (r.table i n).Waits user session → ¬ (r.table i (n + 1)).Waits user session →
      ∀ m, n < m → ∀ j session' data,
        ¬ (r.table j m).Waits user session' ∧ ¬ (r.table j m).Pairs session' user data) := by
  refine ⟨fun n session ha => waiting_of_announce calm ha, ?_, ?_,
    fun n i session user data => bound_of_pairs,
    fun m n i j session session' user user' data data' => pair_unique, ?_⟩
  · intro n i user session hw
    obtain ⟨hissued, hpos, hle⟩ := issued_of_waits hw
    exact ⟨hissued, hpos, hle, fun j other => eq_of_waits calm hw⟩
  · intro n i accepts data session ho hp
    refine ⟨pairs_iff_waits ho hp, ?_, droppedAt_of_nobody ho hp⟩
    intro user hw
    have hpaired := pairedAt_of_waits ho hp hw
    exact ⟨hpaired, hpaired.not_waits⟩
  · intro n i accepts user session ho hw hleft m hnm j session' data
    have hlook : ∀ accepts' data', r.happens n ≠ .act i accepts' (.look data') := by
      intro accepts' data' hlook
      rcases ho with ho | ⟨ttl, ho⟩ <;> rw [ho] at hlook <;> cases hlook
    exact not_paired_of_gone hnm (gone_of_waits hw hleft hlook) j session' data

/-- A user waits at one table; a data connection presents its id at another table, and
then one presents it at the right one. -/
def rightTableLast : Run (fun _ : Bool => 1000) 1 :=
  .of [.comeIn false, .receive 1 (.bytes [71]), .act false true (.look 1), .comeIn true,
    .receive 2 (.bytes (Handshake.encode 1)), .act true true (.look 2), .comeIn false,
    .receive 3 (.bytes (Handshake.encode 1)), .act false true (.look 3)] (.advance 0)

theorem unhurried_rightTableLast : rightTableLast.Unhurried := by
  have hone : ∀ n, rightTableLast.drawn n ≤ 1 := by
    intro n
    rcases Nat.le_total n 9 with hn | hn
    · exact Nat.le_trans (drawn_le hn) (by decide)
    · have hstill : rightTableLast.effects n = rightTableLast.effects 9 :=
        (Course.still_of_le (c := rightTableLast) rfl (fun _ => rfl) hn).2
      rw [drawn, issued, hstill]
      decide
  intro i user session m n _ _ _
  exact Nat.lt_of_le_of_lt (hone (n + 1)) (Nat.lt_of_lt_of_le (by decide) (Nat.le_add_left _ _))

theorem pairing_is_safe_rightTableLast :
    rightTableLast.Unhurried ∧ rightTableLast.DroppedAt 5 true 2 ∧
      rightTableLast.PairedAt 8 false 1 1 3 := by
  have calm := unhurried_rightTableLast
  obtain ⟨-, -, hdata, -⟩ := pairing_is_safe rightTableLast calm
  have hwrong : (rightTableLast.table true 5).Presents 2 1 := by
    show ∃ j ∈ _, _
    decide
  have hnobody : ∀ user, ¬ (rightTableLast.table true 5).Waits user 1 := by
    rintro user ⟨v, hv, -⟩
    cases hv
  have hright : (rightTableLast.table false 8).Presents 3 1 := by
    show ∃ j ∈ _, _
    decide
  have hwaits : (rightTableLast.table false 8).Waits 1 1 := by
    show ∃ v ∈ _, _
    decide
  obtain ⟨-, -, hdropped⟩ := hdata 5 true true 2 1 rfl hwrong
  obtain ⟨-, hpaired, -⟩ := hdata 8 false true 3 1 rfl hright
  exact ⟨calm, hdropped hnobody, (hpaired 1 hwaits).1⟩

end Exchange.Run

end ReverseTunnel.Proxy

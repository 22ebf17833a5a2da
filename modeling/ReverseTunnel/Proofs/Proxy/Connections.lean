import Mathlib.Data.List.Count
import Mathlib.Data.List.Pairwise
import Mathlib.Data.List.Perm.Subperm
import ReverseTunnel.Proofs.Proxy.Move
import ReverseTunnel.Proofs.Relay

/-!
Connections in a session table keep their identity.

No move but the coming in of a connection brings a connection into a table, and none
makes two of one (`keys_subperm`); a well-formed table stays well-formed
(`wellFormed_step`). A connection is judged, may then wait, may then be paired, and
never goes back.
-/

namespace ReverseTunnel.Proxy

open Session

namespace Table

variable {w : Surroundings} {t : Table} {e : TableEvent} {r : TableStep}

/-! ## The connections after a step -/

theorem count_keys (t : Table) (k : Nat) :
    t.keys.count k = (t.judging.map (·.party.key)).count k +
      (t.waiting.map (·.party.key)).count k + (t.paired.flatMap pairKeys).count k := by
  simp [keys, List.count_append, Nat.add_assoc]

theorem count_others_le (session : UInt32) (ws : List Waiting) (k : Nat) :
    ((others session ws).map (·.party.key)).count k ≤ (ws.map (·.party.key)).count k :=
  (List.Sublist.map _ List.filter_sublist).count_le k

theorem pairKeys_goesOn {p : Paired} {e : RelayEvent} {r : Relay} {es : List RelayEffect}
    (h : p.relay.step e = .goesOn r es) : pairKeys { p with relay := r } = pairKeys p := by
  have hf := Relay.key_of_goesOn h .front
  have hb := Relay.key_of_goesOn h .back
  simp only [Relay.party] at hf hb
  simp [pairKeys, hf, hb]

theorem pairKeys_receive (p : Paired) (key : Nat) (a : Arrival) :
    pairKeys { p with relay := p.relay.receive key a } = pairKeys p := by
  simp [pairKeys, Relay.receive, Party.key_receive]

@[simp]
theorem keys_receive (t : Table) (key : Nat) (a : Arrival) : (t.receive key a).keys = t.keys := by
  simp only [keys, receive, Party.key_receive, Function.comp_def, List.map_map, List.flatMap_map,
    pairKeys_receive]

theorem keys_accept (t : Table) (now key : Nat) :
    (t.accept now key).keys.Perm (key :: t.keys) := by
  rw [List.perm_iff_count]
  intro k
  simp only [List.count_cons, count_keys, accept, List.map_append, List.count_append,
    List.map_cons, List.map_nil, List.count_nil]
  omega

/-- No connection is in a table more often than before, unless it comes in. -/
theorem keys_subperm (h : Move w t e r) (ha : ∀ k, e ≠ .accept k) : List.Subperm r.table.keys t.keys := by
  -- each key is counted over the three places in which it can be
  rw [List.subperm_iff_count]
  intro k
  cases h with
  | stay => exact Nat.le_refl _
  | accept key => exact absurd rfl (ha key)
  | receive key a => exact Nat.le_of_eq (by rw [keys_receive])
  | read split _ => simp [count_keys, split]
  | lose split | stale split _ =>
    simp only [count_keys, split, List.map_append, List.count_append, List.map_cons,
      List.count_cons]
    omega
  | register split taken _ =>
    have := count_others_le w.ids.next t.waiting k
    have hk := taken.key
    simp only [count_keys, split, List.map_append, List.count_append, List.map_cons,
      List.count_cons, List.map_nil, List.count_nil, hk]
    omega
  | refuse split _ _ =>
    have := count_others_le w.ids.next t.waiting k
    simp only [count_keys, split, List.map_append, List.count_append, List.map_cons,
      List.count_cons]
    omega
  | pair split _ _ user _ =>
    simp only [count_keys, split, user, List.map_append, List.count_append, List.map_cons,
      List.count_cons, List.flatMap_append, List.flatMap_cons, List.flatMap_nil, pairKeys, join,
      List.count_nil, List.append_nil]
    omega
  | evict ttl =>
    have := (List.Sublist.map (·.party.key)
      (List.filter_sublist (p := fun v : Waiting => w.now < v.since + ttl) (l := t.waiting))).count_le k
    simp only [count_keys, Table.evict]
    omega
  | clear => simp [count_keys, Table.clear]
  | relay split step =>
    simp only [count_keys, split, List.flatMap_append, List.flatMap_cons, List.count_append,
      pairKeys_goesOn step]
    exact Nat.le_refl _
  | close split _ | abort split _ =>
    simp only [count_keys, split, List.flatMap_append, List.flatMap_cons, List.count_append]
    omega

theorem nodup_others {session : UInt32} {ws : List Waiting} (h : (ws.map (·.session)).Nodup) :
    ((others session ws).map (·.session)).Nodup :=
  h.sublist (List.Sublist.map _ List.filter_sublist)

theorem session_of_mem_others {session : UInt32} {ws : List Waiting} {v : Waiting}
    (h : v ∈ others session ws) : v ∈ ws ∧ v.session ≠ session := by
  simpa [others] using h

theorem nodup_sessions (h : Move w t e r) (hs : (t.waiting.map (·.session)).Nodup) :
    (r.table.waiting.map (·.session)).Nodup := by
  cases h with
  | stay | accept | read | lose | stale | relay | close | abort => exact hs
  | receive => simpa [receive, Function.comp_def] using hs
  | register =>
    rw [List.map_append, List.nodup_append]
    refine ⟨nodup_others hs, by simp, ?_⟩
    intro s hmem s' hmem'
    obtain ⟨v, hv, rfl⟩ := List.mem_map.mp hmem
    simp only [List.map_cons, List.map_nil, List.mem_singleton] at hmem'
    rw [hmem']
    exact (session_of_mem_others hv).2
  | refuse => exact nodup_others hs
  | pair _ _ _ user _ =>
    refine hs.sublist (List.Sublist.map _ ?_)
    rw [user]
    exact List.Sublist.append_left (List.sublist_cons_self _ _) _
  | evict => exact hs.sublist (List.Sublist.map _ List.filter_sublist)
  | clear => exact List.nodup_nil

theorem wellFormed_step (h : t.WellFormed) (hnew : ∀ k, e = .accept k → k ∉ t.keys) :
    (t.step w e).table.WellFormed := by
  have hm := move_step (w := w) h e
  refine ⟨?_, nodup_sessions hm h.sessions⟩
  -- only the coming in of a connection adds a key
  by_cases ha : ∃ k, e = .accept k
  · obtain ⟨k, rfl⟩ := ha
    exact (keys_accept t w.now k).nodup_iff.mpr (List.nodup_cons.mpr ⟨hnew k rfl, h.keys⟩)
  · obtain ⟨l, hperm, hsub⟩ := keys_subperm hm fun k hk => ha ⟨k, hk⟩
    exact hperm.nodup_iff.mp (h.keys.sublist hsub)

/-! ## Where a connection is -/

/-- A connection is being judged. -/
def Judges (t : Table) (key : Nat) : Prop := ∃ j ∈ t.judging, j.party.key = key

/-- A user waits under a session id. -/
def Waits (t : Table) (user : Nat) (session : UInt32) : Prop :=
  ∃ v ∈ t.waiting, v.party.key = user ∧ v.session = session

/-- A user is paired with the data connection of its session. -/
def Pairs (t : Table) (session : UInt32) (user data : Nat) : Prop :=
  ∃ p ∈ t.paired, p.session = session ∧ p.relay.front.key = user ∧ p.relay.back.key = data

/-- A connection that is being judged has sent the handshake of a session. -/
def Presents (t : Table) (data : Nat) (session : UInt32) : Prop :=
  ∃ j ∈ t.judging, j.party.key = data ∧ j.party.socket.broken = false ∧
    Handshake.encode session <+: j.buffer ++ j.party.socket.unread

theorem Presents.judges {data : Nat} {session : UInt32} (h : t.Presents data session) :
    t.Judges data := by
  obtain ⟨j, hj, hk, -⟩ := h
  exact ⟨j, hj, hk⟩

theorem mem_keys {k : Nat} : k ∈ t.keys ↔ t.Judges k ∨ (∃ s, t.Waits k s) ∨
    ∃ s u d, t.Pairs s u d ∧ (k = u ∨ k = d) := by
  simp only [keys, List.mem_append, List.mem_map, List.mem_flatMap, pairKeys, List.mem_cons,
    List.not_mem_nil, or_false, or_assoc]
  constructor
  · rintro (⟨j, hj, rfl⟩ | ⟨v, hv, rfl⟩ | ⟨p, hp, hk⟩)
    · exact .inl ⟨j, hj, rfl⟩
    · exact .inr (.inl ⟨v.session, v, hv, rfl, rfl⟩)
    · exact .inr (.inr ⟨_, _, _, ⟨p, hp, rfl, rfl, rfl⟩, hk⟩)
  · rintro (⟨j, hj, rfl⟩ | ⟨_, v, hv, rfl, _⟩ | ⟨_, _, _, ⟨p, hp, rfl, rfl, rfl⟩, hk⟩)
    · exact .inl ⟨j, hj, rfl⟩
    · exact .inr (.inl ⟨v, hv, rfl⟩)
    · exact .inr (.inr ⟨p, hp, hk⟩)

theorem Judges.mem_keys {k : Nat} (h : t.Judges k) : k ∈ t.keys := Table.mem_keys.mpr (.inl h)

theorem Waits.mem_keys {user : Nat} {session : UInt32} (h : t.Waits user session) :
    user ∈ t.keys := Table.mem_keys.mpr (.inr (.inl ⟨session, h⟩))

theorem Pairs.mem_keys {session : UInt32} {user data k : Nat} (h : t.Pairs session user data)
    (hk : k = user ∨ k = data) : k ∈ t.keys :=
  Table.mem_keys.mpr (.inr (.inr ⟨session, user, data, h, hk⟩))

theorem mem_keys_of_paired {p : Paired} {k : Nat} (hp : p ∈ t.paired) (hk : k ∈ pairKeys p) :
    k ∈ t.keys :=
  List.mem_append_right _ (List.mem_flatMap.mpr ⟨p, hp, hk⟩)

theorem WellFormed.not_waits_of_judges (h : t.WellFormed) {k : Nat} {session : UInt32}
    (hj : t.Judges k) : ¬ t.Waits k session := by
  obtain ⟨j, hj, rfl⟩ := hj
  rintro ⟨v, hv, hk, -⟩
  have hn := h.keys
  rw [Table.keys, List.append_assoc, List.nodup_append] at hn
  exact hn.2.2 _ (List.mem_map.mpr ⟨j, hj, rfl⟩) _
    (List.mem_append_left _ (List.mem_map.mpr ⟨v, hv, rfl⟩)) hk.symm

theorem mem_pairKeys_of_pairs {session : UInt32} {user data : Nat}
    (h : t.Pairs session user data) :
    user ∈ t.paired.flatMap pairKeys ∧ data ∈ t.paired.flatMap pairKeys := by
  obtain ⟨p, hp, -, rfl, rfl⟩ := h
  exact ⟨List.mem_flatMap.mpr ⟨p, hp, by simp [pairKeys]⟩,
    List.mem_flatMap.mpr ⟨p, hp, by simp [pairKeys]⟩⟩

theorem WellFormed.ne_of_pairs (h : t.WellFormed) {session : UInt32} {user data k : Nat}
    (hp : t.Pairs session user data) (hk : t.Judges k ∨ ∃ s, t.Waits k s) :
    k ≠ user ∧ k ≠ data := by
  have hn := h.keys
  rw [Table.keys, List.nodup_append] at hn
  have hmem : k ∈ t.judging.map (·.party.key) ++ t.waiting.map (·.party.key) := by
    rcases hk with ⟨j, hj, rfl⟩ | ⟨_, v, hv, rfl, -⟩
    · exact List.mem_append_left _ (List.mem_map.mpr ⟨j, hj, rfl⟩)
    · exact List.mem_append_right _ (List.mem_map.mpr ⟨v, hv, rfl⟩)
  obtain ⟨hu, hd⟩ := mem_pairKeys_of_pairs hp
  exact ⟨hn.2.2 _ hmem _ hu, hn.2.2 _ hmem _ hd⟩

theorem WellFormed.nodup_pairKeys (h : t.WellFormed) : (t.paired.flatMap pairKeys).Nodup := by
  have hn := h.keys
  rw [Table.keys, List.nodup_append] at hn
  exact hn.2.1

theorem WellFormed.pair_unique (h : t.WellFormed) {p q : Paired} {k : Nat} (hp : p ∈ t.paired)
    (hq : q ∈ t.paired) (hkp : k ∈ pairKeys p) (hkq : k ∈ pairKeys q) : p = q := by
  -- two pairs in one list are disjoint
  by_contra hne
  have hd := (List.nodup_flatMap.mp h.nodup_pairKeys).2
  have : Std.Symm (Function.onFun List.Disjoint pairKeys) :=
    ⟨fun _ _ h _ hx hy => h hy hx⟩
  have hdis : List.Disjoint (pairKeys p) (pairKeys q) := hd.forall hp hq hne
  exact hdis hkp hkq

theorem WellFormed.user_ne_data (h : t.WellFormed) {p : Paired} (hp : p ∈ t.paired) :
    p.relay.front.key ≠ p.relay.back.key := by
  have hd := (List.nodup_flatMap.mp h.nodup_pairKeys).1 p hp
  simpa [pairKeys] using hd

theorem WellFormed.waiting_unique (h : t.WellFormed) {v v' : Waiting} (hv : v ∈ t.waiting)
    (hv' : v' ∈ t.waiting) (hk : v.party.key = v'.party.key) : v = v' := by
  have hn := h.keys
  rw [Table.keys, List.append_assoc, List.nodup_append, List.nodup_append] at hn
  exact List.inj_on_of_nodup_map hn.2.1.1 hv hv' hk

/-! ## How a connection moves -/

theorem mem_of_split {α : Type} {l m : List α} {a : α} {as : List α} (split : as = l ++ a :: m) :
    a ∈ as := by
  rw [split]
  exact List.mem_append_right _ List.mem_cons_self

theorem subset_of_split {α : Type} {l m : List α} {a : α} {as : List α} (split : as = l ++ a :: m) :
    l ++ m ⊆ as := by
  rw [split]
  exact (List.Sublist.append_left (List.sublist_cons_self _ _) _).subset

theorem mem_effects_evict {ttl : Nat} {eff : TableEffect} (h : eff ∈ (t.evict w ttl).effects) :
    (∃ n, eff = .count n) ∨ ∃ v ∈ t.waiting, eff = .drop v.party.key := by
  simp only [Table.evict, List.mem_append, List.mem_map] at h
  rcases h with h | ⟨v, hv, rfl⟩
  · split at h
    · cases h
    · exact .inl ⟨_, List.mem_singleton.mp h⟩
  · exact .inr ⟨v, (List.mem_filter.mp hv).1, rfl⟩

theorem judges_of_split {l m : List Judged} {j : Judged} (split : t.judging = l ++ j :: m) :
    t.Judges j.party.key :=
  ⟨j, mem_of_split split, rfl⟩

theorem judges_step {k : Nat} (h : Move w t e r) (hk : r.table.Judges k) :
    t.Judges k ∨ e = .accept k := by
  obtain ⟨j, hj, rfl⟩ := hk
  cases h with
  | stay | evict | clear | relay | close | abort => exact .inl ⟨j, hj, rfl⟩
  | accept key =>
    rcases List.mem_append.mp hj with hj | hj
    · exact .inl ⟨j, hj, rfl⟩
    · rw [List.mem_singleton.mp hj]
      exact .inr rfl
  | receive key a =>
    obtain ⟨j', hj', rfl⟩ := List.mem_map.mp hj
    exact .inl ⟨j', hj', (Party.key_receive _ _ _).symm⟩
  | read split _ =>
    simp only [List.mem_append, List.mem_cons] at hj
    rcases hj with hj | rfl | hj
    · exact .inl ⟨j, by simp [split, hj], rfl⟩
    · have := judges_of_split split
      exact .inl this
    · exact .inl ⟨j, by simp [split, hj], rfl⟩
  | lose split | stale split _ | register split _ _ | refuse split _ _ | pair split _ _ _ _ =>
    exact .inl ⟨j, subset_of_split split hj, rfl⟩

/-- A user that waits has waited under the same id before, or was judged, got the next
id and was announced. -/
theorem waits_step {user : Nat} {session : UInt32} (h : Move w t e r)
    (hw : r.table.Waits user session) :
    t.Waits user session ∨ (t.Judges user ∧ session = w.ids.next ∧
      .announce session ∈ r.effects ∧ (e = .look user ∨ e = .timeUp user)) := by
  obtain ⟨v, hv, rfl, rfl⟩ := hw
  cases h with
  | stay | accept | read | lose | stale | relay | close | abort => exact .inl ⟨v, hv, rfl, rfl⟩
  | receive key a =>
    obtain ⟨v', hv', rfl⟩ := List.mem_map.mp hv
    exact .inl ⟨v', hv', (Party.key_receive _ _ _).symm, rfl⟩
  | register split taken _ =>
    rcases List.mem_append.mp hv with hv | hv
    · exact .inl ⟨v, (session_of_mem_others hv).1, rfl, rfl⟩
    · rw [List.mem_singleton.mp hv]
      refine .inr ⟨?_, rfl, List.mem_append_right _ (List.mem_singleton_self _), ?_⟩
      · show t.Judges _
        rw [taken.key]
        exact judges_of_split split
      · show _ = TableEvent.look (Party.key _) ∨ _ = TableEvent.timeUp (Party.key _)
        rw [taken.key]
        cases taken with
        | shown => exact .inl rfl
        | late => exact .inr rfl
  | refuse => exact .inl ⟨v, (session_of_mem_others hv).1, rfl, rfl⟩
  | pair _ _ _ user _ => exact .inl ⟨v, subset_of_split user hv, rfl, rfl⟩
  | evict => exact .inl ⟨v, (List.mem_filter.mp hv).1, rfl, rfl⟩
  | clear => simp [Table.clear] at hv

/-- A pair was a pair before, or its data connection was looked at and had sent the
handshake of its session while its user waited under this id. -/
theorem pairs_step {session : UInt32} {user data : Nat} (h : Move w t e r)
    (hp : r.table.Pairs session user data) :
    t.Pairs session user data ∨
      (t.Presents data session ∧ t.Waits user session ∧ e = .look data) := by
  obtain ⟨p, hp, rfl, rfl, rfl⟩ := hp
  cases h with
  | stay | accept | read | lose | stale | register | refuse | evict | clear =>
    exact .inl ⟨p, hp, rfl, rfl, rfl⟩
  | receive key a =>
    obtain ⟨p', hp', rfl⟩ := List.mem_map.mp hp
    exact .inl ⟨p', hp', rfl, (Party.key_receive _ _ _).symm, (Party.key_receive _ _ _).symm⟩
  | pair split sound read user _ =>
    rcases List.mem_append.mp hp with hp | hp
    · exact .inl ⟨p, hp, rfl, rfl, rfl⟩
    · rw [List.mem_singleton.mp hp]
      refine .inr ⟨⟨_, mem_of_split split, rfl, sound, ?_⟩, ⟨_, mem_of_split user, rfl, rfl⟩, rfl⟩
      rw [← read.bytes, List.append_assoc]
      exact List.prefix_append _ _
  | relay split step =>
    rename_i l m q _ r' _
    have hf := Relay.key_of_goesOn step .front
    have hb := Relay.key_of_goesOn step .back
    simp only [List.mem_append, List.mem_cons] at hp
    rcases hp with hp | rfl | hp
    · exact .inl ⟨p, by simp [split, hp], rfl, rfl, rfl⟩
    · exact .inl ⟨q, by simp [split], rfl, hf.symm, hb.symm⟩
    · exact .inl ⟨p, by simp [split, hp], rfl, rfl, rfl⟩
  | close split _ | abort split _ => exact .inl ⟨p, subset_of_split split hp, rfl, rfl, rfl⟩

/-! ## The pair of a data connection -/

theorem WellFormed.eq_of_back (h : t.WellFormed) {p q : Paired} (hp : p ∈ t.paired)
    (hq : q ∈ t.paired) (hk : p.relay.back.key = q.relay.back.key) : p = q :=
  h.pair_unique hp hq (k := p.relay.back.key) (by simp [pairKeys]) (by simp [pairKeys, hk])

theorem WellFormed.pairOf?_of_mem (h : t.WellFormed) {p : Paired} (hp : p ∈ t.paired) :
    t.pairOf? p.relay.back.key = some p :=
  Keyed.find?_of_mem (f := fun q : Paired => q.relay.back.key) h.backs hp

theorem relay_of_mem (h : t.WellFormed) {p : Paired} (hp : p ∈ t.paired) (e : RelayEvent) :
    (∃ r' es, p.relay.step e = .goesOn r' es ∧
      { p with relay := r' } ∈ (t.relay w p.relay.back.key e).table.paired ∧
      (t.relay w p.relay.back.key e).effects = es.map .relay) ∨
    (∃ up down, p.relay.step e = .closes up down ∧
      (t.relay w p.relay.back.key e).effects =
        [.count ⟨.relayIngressBytes, up + p.buffered⟩, .count ⟨.relayEgressBytes, down + p.rest⟩,
          .drop p.relay.front.key, .drop p.relay.back.key] ∧
      (t.relay w p.relay.back.key e).table.paired = part p.relay.back.key t.paired) ∨
    (p.relay.step e = .aborts ∧
      (t.relay w p.relay.back.key e).effects =
        [.drop p.relay.front.key, .drop p.relay.back.key] ∧
      (t.relay w p.relay.back.key e).table.paired = part p.relay.back.key t.paired) := by
  unfold relay
  simp only [h.pairOf?_of_mem hp]
  cases hs : p.relay.step e with
  | goesOn r' es =>
    refine .inl ⟨r', es, rfl, ?_, rfl⟩
    exact List.mem_map.mpr ⟨p, hp, by simp⟩
  | closes up down => exact .inr (.inl ⟨up, down, rfl, rfl, rfl⟩)
  | aborts => exact .inr (.inr ⟨rfl, rfl, rfl⟩)

theorem relay_of_unpaired {key : Nat} (h : ∀ p ∈ t.paired, p.relay.back.key ≠ key)
    (e : RelayEvent) : t.relay w key e = { table := t, ids := w.ids } := by
  have hf : t.pairOf? key = none := by
    unfold pairOf?
    exact List.find?_eq_none.mpr fun p hp => by simpa using h p hp
  simp [relay, hf]

/-- A pair stays as it is as long as neither its relay nor a far end acts. -/
theorem mem_paired_of_move (h : Move w t e r) {p : Paired} (hp : p ∈ t.paired)
    (hrelay : ∀ re, e ≠ .relay p.relay.back.key re) (hreceive : ∀ k a, e ≠ .receive k a) :
    p ∈ r.table.paired := by
  cases h with
  | stay | accept | read | lose | register | refuse | stale | evict | clear => exact hp
  | receive key a => exact absurd rfl (hreceive key a)
  | pair => exact List.mem_append_left _ hp
  | relay split _ | close split _ | abort split _ =>
    rw [split] at hp
    simp only [List.mem_append, List.mem_cons] at hp ⊢
    rcases hp with hp | rfl | hp
    · exact .inl hp
    · exact absurd rfl (hrelay _)
    · first | exact .inr hp | exact .inr (.inr hp)

end Table

end ReverseTunnel.Proxy

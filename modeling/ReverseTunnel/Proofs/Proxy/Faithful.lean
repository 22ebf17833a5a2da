import ReverseTunnel.Proofs.Conveying
import ReverseTunnel.Proofs.Proxy.Connections

/-!
A session table is faithful to its connections.

While a connection is judged or waits, nothing has gone out to it, and what was read
from it and what is unread are what it has sent. When it is paired, its bytes are on
one lane of a relay and those of its partner on the other. Every move of a table that
is not the coming in of a connection keeps this (`Faithful.move`, `Faithful.receive`).
-/

namespace ReverseTunnel

/-- The connection that an effect of a relay is about. -/
def RelayEffect.key : RelayEffect → Nat
  | .deliver key _ => key
  | .finish key => key

theorem RelayEffect.brings_of_ne {e : RelayEffect} {key : Nat} (h : e.key ≠ key) : e.brings key = [] := by
  cases e with
  | deliver k bs => exact if_neg h
  | finish k => rfl

theorem Held.readOn {tr : Trail} {buffer seen : Bytes} {s s' : Socket} (h : Held tr buffer s)
    (hr : Proxy.ReadOn buffer s seen s') : Held tr seen s' := by
  refine ⟨hr.bytes ▸ h.within, ?_, hr.ended ▸ h.ended, hr.gone ▸ h.gone, ?_⟩
  · intro hb
    rw [hr.bytes]
    exact h.all (hr.broken ▸ hb)
  · intro hb
    rw [hr.ended, hr.gone]
    exact h.broken (hr.broken ▸ hb)

namespace Proxy

open Session

/-! ## What goes out -/

/-- What an effect of a table brings to a connection. -/
def TableEffect.brings (key : Nat) : TableEffect → Bytes
  | .relay e => e.brings key
  | .drop _ => []
  | .announce _ => []
  | .count _ => []

/-- What goes out to a connection. -/
def outgoing (es : List TableEffect) (key : Nat) : Bytes := es.flatMap (·.brings key)

/-- A connection is told of an end. -/
def tells (es : List TableEffect) (key : Nat) : Prop := .relay (.finish key) ∈ es

theorem outgoing_relay (es : List RelayEffect) (key : Nat) :
    outgoing (es.map .relay) key = es.flatMap (·.brings key) := by
  simp only [outgoing, List.flatMap_map]
  rfl

theorem tells_relay (es : List RelayEffect) (key : Nat) :
    tells (es.map .relay) key ↔ .finish key ∈ es := by
  simp [tells]

theorem silent_of_no_relay {es : List TableEffect} (h : ∀ e, .relay e ∉ es) (key : Nat) :
    outgoing es key = [] ∧ ¬ tells es key := by
  refine ⟨List.flatMap_eq_nil_iff.mpr fun e he => ?_, h _⟩
  cases e with
  | relay e => exact absurd he (h e)
  | drop _ | announce _ | count _ => rfl

theorem reached_of_goesOn {r r' : Relay} {e : RelayEvent} {es : List RelayEffect}
    (hs : r.step e = .goesOn r' es) {re : RelayEffect} (hre : re ∈ es) :
    ∃ side, re.key = (r.party side).key := by
  have hm := Relay.move_step (r := r) e
  rw [hs] at hm
  cases hm with
  | stay | skip => cases hre
  | write => exact ⟨_, by rw [List.mem_singleton.mp hre]; rfl⟩
  | copy => exact ⟨_, by rw [List.mem_singleton.mp hre]; rfl⟩
  | conclude => exact ⟨_, by rw [List.mem_singleton.mp hre]; rfl⟩

theorem party_mem_pairKeys (p : Paired) (side : Side) :
    (p.relay.party side).key ∈ Table.pairKeys p := by
  cases side <;> simp [Relay.party, Table.pairKeys]

namespace Table

theorem silent_of_goesOn {p : Paired} {e : RelayEvent} {r' : Relay} {es : List RelayEffect}
    (hs : p.relay.step e = .goesOn r' es) {key : Nat} (hk : key ∉ pairKeys p) :
    outgoing (es.map .relay) key = [] ∧ ¬ tells (es.map .relay) key := by
  have hne : ∀ re ∈ es, re.key ≠ key := by
    rintro re hre rfl
    obtain ⟨side, hside⟩ := reached_of_goesOn hs hre
    exact hk (hside ▸ party_mem_pairKeys p side)
  refine ⟨?_, ?_⟩
  · rw [outgoing_relay]
    exact List.flatMap_eq_nil_iff.mpr fun re hre => RelayEffect.brings_of_ne (hne re hre)
  · rw [tells_relay]
    exact fun hre => hne _ hre rfl

/-- A move reaches only the connections of the pair whose relay takes a step. -/
theorem silent_of_move {w : Surroundings} {t : Table} {e : TableEvent} {r : TableStep}
    (hm : Move w t e r) {key : Nat}
    (hk : ∀ p ∈ t.paired, ∀ re, e = .relay p.relay.back.key re → key ∉ pairKeys p) :
    outgoing r.effects key = [] ∧ ¬ tells r.effects key := by
  cases hm with
  | relay split step => exact silent_of_goesOn step (hk _ (mem_of_split split) _ rfl)
  | stay | accept | receive | read | lose | stale | close | abort | pair | clear =>
    exact silent_of_no_relay (by simp [Table.clear]) key
  | register | refuse => exact silent_of_no_relay (by simp [displaced]) key
  | evict ttl =>
    apply silent_of_no_relay
    intro re hre
    rcases mem_effects_evict hre with ⟨_, h⟩ | ⟨_, _, h⟩ <;> cases h

end Table

/-! ## Faithful tables -/

/-- What the lane from a side of a pair is to convey. -/
def Paired.account (p : Paired) : Side → Account
  | .front => ⟨Handshake.encode p.session, [], p.buffered⟩
  | .back => ⟨[], Handshake.encode p.session, p.rest⟩

/-- A lane of a pair, in a world in which the far ends have left these trails, this
went out to the connections, and these were told of an end. -/
def Paired.Flows (p : Paired) (tr : Nat → Trail) (out : Nat → Bytes) (told : Nat → Prop)
    (source : Side) : Prop :=
  ∃ taken, Lane p.relay source (p.account source) (tr (p.relay.party source).key)
    (out (p.relay.party source.other).key) (told (p.relay.party source.other).key) taken

namespace Table

/-- A table treats its connections as they deserve. -/
structure Faithful (t : Table) (tr : Nat → Trail) (out : Nat → Bytes) (told : Nat → Prop) :
    Prop where
  judging : ∀ j ∈ t.judging, Held (tr j.party.key) j.buffer j.party.socket
  waiting : ∀ v ∈ t.waiting, Held (tr v.party.key) v.buffered v.party.socket
  silent : ∀ k, t.Judges k ∨ (∃ session, t.Waits k session) → out k = [] ∧ ¬ told k
  paired : ∀ p ∈ t.paired, ∀ source, p.Flows tr out told source

variable {w : Surroundings} {t : Table} {e : TableEvent} {r : TableStep} {tr : Nat → Trail}
  {out : Nat → Bytes} {told : Nat → Prop}

/-- Only the connections of a table matter to it. -/
theorem Faithful.congr (h : t.Faithful tr out told) {tr' : Nat → Trail} {out' : Nat → Bytes}
    {told' : Nat → Prop}
    (same : ∀ k ∈ t.keys, tr' k = tr k ∧ out' k = out k ∧ (told' k ↔ told k)) :
    t.Faithful tr' out' told' where
  judging j hj := by
    have hk : t.Judges j.party.key := ⟨j, hj, rfl⟩
    rw [(same _ hk.mem_keys).1]
    exact h.judging j hj
  waiting v hv := by
    have hk : t.Waits v.party.key v.session := ⟨v, hv, rfl, rfl⟩
    rw [(same _ hk.mem_keys).1]
    exact h.waiting v hv
  silent k hk := by
    have hmem : k ∈ t.keys := by
      rcases hk with hj | ⟨s, hw⟩
      · exact hj.mem_keys
      · exact hw.mem_keys
    obtain ⟨-, hout, htold⟩ := same k hmem
    rw [hout, htold]
    exact h.silent k hk
  paired p hp source := by
    have hmem : ∀ side, (p.relay.party side).key ∈ t.keys := fun side =>
      mem_keys_of_paired hp (party_mem_pairKeys p side)
    obtain ⟨htr, -, -⟩ := same _ (hmem source)
    obtain ⟨-, hout, htold⟩ := same _ (hmem source.other)
    obtain ⟨taken, hl⟩ := h.paired p hp source
    refine ⟨taken, ?_⟩
    rw [htr, hout]
    exact ⟨hl.held, hl.conveyed, hl.counted, htold.trans hl.told, hl.ended⟩

theorem Faithful.fewer (h : t.Faithful tr out told) {t' : Table}
    (hj : t'.judging ⊆ t.judging) (hw : t'.waiting ⊆ t.waiting) (hp : t'.paired ⊆ t.paired) :
    t'.Faithful tr out told where
  judging j hj' := h.judging j (hj hj')
  waiting v hv := h.waiting v (hw hv)
  silent k hk := by
    apply h.silent k
    rcases hk with ⟨j, hj', rfl⟩ | ⟨s, v, hv, rfl, rfl⟩
    · exact .inl ⟨j, hj hj', rfl⟩
    · exact .inr ⟨_, v, hw hv, rfl, rfl⟩
  paired p hp' := h.paired p (hp hp')

/-- The trails after the far end of a connection has done something more. -/
def after (tr : Nat → Trail) (key : Nat) (a : Arrival) (k : Nat) : Trail :=
  if key = k then (tr k).receive a else tr k

theorem held_receive {p : Party} {taken : Bytes} (h : Held (tr p.key) taken p.socket) (key : Nat)
    (a : Arrival) : Held (after tr key a (p.receive key a).key) taken (p.receive key a).socket := by
  rw [Party.key_receive, Party.socket_receive, after]
  split
  · exact h.receive a
  · exact h

theorem Faithful.receive (h : t.Faithful tr out told) (key : Nat) (a : Arrival) :
    (t.receive key a).Faithful (after tr key a) out told where
  judging j hj := by
    obtain ⟨j₀, hj₀, rfl⟩ := List.mem_map.mp hj
    exact held_receive (h.judging j₀ hj₀) key a
  waiting v hv := by
    obtain ⟨v₀, hv₀, rfl⟩ := List.mem_map.mp hv
    exact held_receive (h.waiting v₀ hv₀) key a
  silent k hk := by
    apply h.silent k
    rcases hk with ⟨j, hj, rfl⟩ | ⟨s, v, hv, rfl, rfl⟩
    · obtain ⟨j₀, hj₀, rfl⟩ := List.mem_map.mp hj
      exact .inl ⟨j₀, hj₀, (Party.key_receive _ _ _).symm⟩
    · obtain ⟨v₀, hv₀, rfl⟩ := List.mem_map.mp hv
      exact .inr ⟨_, v₀, hv₀, (Party.key_receive _ _ _).symm, rfl⟩
  paired p hp source := by
    obtain ⟨p₀, hp₀, rfl⟩ := List.mem_map.mp hp
    obtain ⟨taken, hl⟩ := h.paired p₀ hp₀ source
    have hkey : ∀ side, ((p₀.relay.receive key a).party side).key = (p₀.relay.party side).key :=
      fun side => by cases side <;> exact Party.key_receive _ _ _
    refine ⟨taken, ?_⟩
    simp only [hkey]
    exact hl.receive key a

/-- A pair that was just joined conveys nothing yet. -/
theorem flows_join {u : Waiting} {j : Judged} {s : Socket} {rest : Bytes}
    (hu : Held (tr u.party.key) u.buffered u.party.socket)
    (hd : Held (tr j.party.key) (Handshake.encode u.session ++ rest) s)
    (hsu : out u.party.key = [] ∧ ¬ told u.party.key)
    (hsd : out j.party.key = [] ∧ ¬ told j.party.key) (source : Side) :
    (join u { j.party with socket := s } rest).Flows tr out told source := by
  -- nothing is copied yet: the lane to the data connection opens with the handshake
  cases source with
  | front =>
    refine ⟨u.buffered, hu, ?_, rfl, ⟨fun ht => absurd ht hsd.2, fun he => by cases he⟩,
      fun he => by cases he⟩
    show out j.party.key ++ _ = _
    simp [hsd.1, pending, join, Side.other, Paired.account]
  | back =>
    refine ⟨rest, hd, ?_, rfl, ⟨fun ht => absurd ht hsu.2, fun he => by cases he⟩,
      fun he => by cases he⟩
    show out u.party.key ++ _ = _
    simp [hsu.1, pending, join, Side.other, Paired.account]

theorem flows_goesOn {p : Paired} {e : RelayEvent} {r' : Relay} {es : List RelayEffect}
    (hf : ∀ source, p.Flows tr out told source) (apart : p.relay.front.key ≠ p.relay.back.key)
    (hs : p.relay.step e = .goesOn r' es) (source : Side) :
    ({ p with relay := r' } : Paired).Flows tr (fun k => out k ++ outgoing (es.map .relay) k)
      (fun k => told k ∨ tells (es.map .relay) k) source := by
  obtain ⟨taken, hl⟩ := hf source
  have hne : (p.relay.party source).key ≠ (p.relay.party source.other).key := by
    cases source with
    | front => exact apart
    | back => exact apart.symm
  obtain ⟨taken', hl'⟩ := hl.step hne hs
  refine ⟨taken', ?_⟩
  simp only [Relay.key_of_goesOn hs, outgoing_relay, tells_relay]
  exact hl'

theorem WellFormed.pairs_apart (h : t.WellFormed) {l m : List Paired} {p q : Paired}
    (split : t.paired = l ++ p :: m) (hq : q ∈ l ++ m) {k : Nat} (hk : k ∈ pairKeys q) :
    k ∉ pairKeys p := by
  have hn := (List.nodup_flatMap.mp h.nodup_pairKeys).2
  rw [split, List.pairwise_append, List.pairwise_cons] at hn
  obtain ⟨-, ⟨hpm, -⟩, hlp⟩ := hn
  intro hkp
  rcases List.mem_append.mp hq with hq | hq
  · exact hlp q hq p List.mem_cons_self hk hkp
  · exact hpm q hq hkp hk

theorem Faithful.relay (h : t.Faithful tr out told) (hwf : t.WellFormed) {l m : List Paired}
    {p : Paired} {e : RelayEvent} {r' : Relay} {es : List RelayEffect}
    (split : t.paired = l ++ p :: m) (hs : p.relay.step e = .goesOn r' es) :
    ({ t with paired := l ++ { p with relay := r' } :: m } : Table).Faithful tr
      (fun k => out k ++ outgoing (es.map .relay) k)
      (fun k => told k ∨ tells (es.map .relay) k) where
  judging := h.judging
  waiting := h.waiting
  silent k hk := by
    have hp : t.Pairs p.session p.relay.front.key p.relay.back.key :=
      ⟨p, mem_of_split split, rfl, rfl, rfl⟩
    obtain ⟨hku, hkd⟩ := hwf.ne_of_pairs hp hk
    have hkp : k ∉ pairKeys p := by simp [pairKeys, hku, hkd]
    obtain ⟨hout, htold⟩ := silent_of_goesOn hs hkp
    obtain ⟨hout', htold'⟩ := h.silent k hk
    simp [hout, htold, hout', htold']
  paired q hq source := by
    -- the other pairs hear nothing of this relay
    have hsame : ∀ q ∈ l ++ m, q.Flows tr (fun k => out k ++ outgoing (es.map .relay) k)
        (fun k => told k ∨ tells (es.map .relay) k) source := by
      intro q hq
      have hqt : q ∈ t.paired := subset_of_split split hq
      obtain ⟨hout, htold⟩ := silent_of_goesOn hs
        (hwf.pairs_apart split hq (party_mem_pairKeys q source.other))
      obtain ⟨taken, hl⟩ := h.paired q hqt source
      refine ⟨taken, ?_⟩
      simpa [hout, htold] using hl
    have hpt : p ∈ t.paired := mem_of_split split
    rcases List.mem_append.mp hq with hq | hq
    · exact hsame q (List.mem_append_left _ hq)
    · rcases List.mem_cons.mp hq with rfl | hq
      · exact flows_goesOn (h.paired p hpt) (hwf.user_ne_data hpt) hs source
      · exact hsame q (List.mem_append_right _ hq)

/-- Effects that no relay has leave a table faithful. -/
theorem Faithful.mute (h : t.Faithful tr out told) {es : List TableEffect}
    (hes : ∀ e, .relay e ∉ es) :
    t.Faithful tr (fun k => out k ++ outgoing es k) (fun k => told k ∨ tells es k) := by
  apply h.congr
  intro k _
  obtain ⟨hout, htold⟩ := silent_of_no_relay hes k
  simp [hout, htold]

theorem Faithful.silent_of_split (h : t.Faithful tr out told) {l m : List Judged} {j : Judged}
    (split : t.judging = l ++ j :: m) : out j.party.key = [] ∧ ¬ told j.party.key :=
  h.silent _ (.inl (judges_of_split split))

theorem Faithful.register (h : t.Faithful tr out told) {l m : List Judged} {j : Judged}
    {p : Party} {buffered : Bytes} (split : t.judging = l ++ j :: m)
    (taken : TakenForUser w j e p buffered) (session : UInt32) (since : Nat) :
    ({ t with
        judging := l ++ m
        waiting := others session t.waiting ++ [⟨p, session, buffered, since⟩] } : Table).Faithful
      tr out told := by
  have hj : j ∈ t.judging := mem_of_split split
  have hsub : ({ t with judging := l ++ m, waiting := others session t.waiting } : Table).Faithful
      tr out told :=
    h.fewer (subset_of_split split) List.filter_sublist.subset (List.Subset.refl _)
  refine ⟨hsub.judging, ?_, ?_, hsub.paired⟩
  · intro v hv
    rcases List.mem_append.mp hv with hv | hv
    · exact hsub.waiting v hv
    · rw [List.mem_singleton.mp hv]
      show Held (tr p.key) buffered p.socket
      rw [taken.key]
      exact (h.judging j hj).readOn taken.read
  · intro k hk
    rcases hk with hk | ⟨s, v, hv, rfl, rfl⟩
    · exact hsub.silent k (.inl hk)
    · rcases List.mem_append.mp hv with hv | hv
      · exact hsub.silent _ (.inr ⟨_, v, hv, rfl, rfl⟩)
      · rw [List.mem_singleton.mp hv]
        show out p.key = [] ∧ ¬ told p.key
        rw [taken.key]
        exact h.silent_of_split split

theorem Faithful.pair (h : t.Faithful tr out told) {l m : List Judged} {j : Judged}
    {a b : List Waiting} {u : Waiting} {s : Socket} {rest : Bytes}
    (split : t.judging = l ++ j :: m)
    (read : ReadOn j.buffer j.party.socket (Handshake.encode u.session ++ rest) s)
    (user : t.waiting = a ++ u :: b) :
    ({ t with
        judging := l ++ m
        waiting := a ++ b
        paired := t.paired ++ [join u { j.party with socket := s } rest] } : Table).Faithful
      tr out told := by
  have hj : j ∈ t.judging := mem_of_split split
  have hu : u ∈ t.waiting := mem_of_split user
  have hsub : ({ t with judging := l ++ m, waiting := a ++ b } : Table).Faithful tr out told :=
    h.fewer (subset_of_split split) (subset_of_split user) (List.Subset.refl _)
  refine ⟨hsub.judging, hsub.waiting, hsub.silent, ?_⟩
  intro p hp source
  rcases List.mem_append.mp hp with hp | hp
  · exact hsub.paired p hp source
  · rw [List.mem_singleton.mp hp]
    exact flows_join (h.waiting u hu) ((h.judging j hj).readOn read)
      (h.silent _ (.inr ⟨_, u, hu, rfl, rfl⟩)) (h.silent_of_split split) source

theorem Faithful.read (h : t.Faithful tr out told) {l m : List Judged} {j : Judged}
    {seen : Bytes} {s : Socket} (split : t.judging = l ++ j :: m)
    (read : ReadOn j.buffer j.party.socket seen s) :
    ({ t with
        judging := l ++ { j with party := { j.party with socket := s }, buffer := seen } :: m } :
      Table).Faithful tr out told := by
  have hj : j ∈ t.judging := mem_of_split split
  have hmem : ∀ k ∈ l ++ { j with party := { j.party with socket := s }, buffer := seen } :: m,
      k ∈ t.judging ∨ k = { j with party := { j.party with socket := s }, buffer := seen } := by
    intro k hk
    rw [split]
    simp only [List.mem_append, List.mem_cons] at hk ⊢
    rcases hk with hk | hk | hk
    · exact .inl (.inl hk)
    · exact .inr hk
    · exact .inl (.inr (.inr hk))
  refine ⟨?_, h.waiting, ?_, h.paired⟩
  · intro k hk
    rcases hmem k hk with hk | rfl
    · exact h.judging k hk
    · exact (h.judging j hj).readOn read
  · intro k hk
    apply h.silent k
    rcases hk with ⟨k', hk', rfl⟩ | hw
    · rcases hmem k' hk' with hk' | rfl
      · exact .inl ⟨k', hk', rfl⟩
      · exact .inl ⟨j, hj, rfl⟩
    · exact .inr hw

theorem Faithful.accept (h : t.Faithful tr out told) (now key : Nat) (htr : tr key = {})
    (hout : out key = []) (htold : ¬ told key) : (t.accept now key).Faithful tr out told where
  judging j hj := by
    rcases List.mem_append.mp hj with hj | hj
    · exact h.judging j hj
    · rw [List.mem_singleton.mp hj]
      show Held (tr key) [] {}
      rw [htr]
      exact .start
  waiting := h.waiting
  silent k hk := by
    rcases hk with ⟨j, hj, rfl⟩ | hw
    · rcases List.mem_append.mp hj with hj | hj
      · exact h.silent _ (.inl ⟨j, hj, rfl⟩)
      · rw [List.mem_singleton.mp hj]
        exact ⟨hout, htold⟩
    · exact h.silent k (.inr hw)
  paired := h.paired

/-- A step that only lets connections go leaves a table faithful. -/
theorem Faithful.letGo (h : t.Faithful tr out told) (hj : r.table.judging ⊆ t.judging)
    (hw : r.table.waiting ⊆ t.waiting) (hp : r.table.paired ⊆ t.paired)
    (hes : ∀ e, .relay e ∉ r.effects) :
    r.table.Faithful tr (fun k => out k ++ outgoing r.effects k)
      (fun k => told k ∨ tells r.effects k) :=
  (h.fewer hj hw hp).mute hes

/-- Every move of a table that is about its own connections leaves it faithful. -/
theorem Faithful.move (h : t.Faithful tr out told) (hwf : t.WellFormed) (hm : Move w t e r)
    (ha : ∀ k, e ≠ .accept k) (hr : ∀ k a, e ≠ .receive k a) :
    r.table.Faithful tr (fun k => out k ++ outgoing r.effects k)
      (fun k => told k ∨ tells r.effects k) := by
  have hall : ∀ {α : Type} (as : List α), as ⊆ as := fun as => List.Subset.refl as
  cases hm with
  | accept key => exact absurd rfl (ha key)
  | receive key a => exact absurd rfl (hr key a)
  | stay => exact h.mute (by simp)
  | read split read => exact (h.read split read).mute (by simp)
  | lose split | stale split _ =>
    refine h.letGo ?_ (hall _) (hall _) (by simp)
    exact subset_of_split split
  | register split taken _ => exact (h.register split taken _ _).mute (by simp [displaced])
  | refuse split taken _ =>
    refine h.letGo ?_ ?_ (hall _) (by simp [displaced])
    · exact subset_of_split split
    · exact List.filter_sublist.subset
  | pair split _ read user _ => exact (h.pair split read user).mute (by simp)
  | evict ttl =>
    have hfewer : (t.evict w ttl).table.waiting ⊆ t.waiting := List.filter_sublist.subset
    apply h.letGo (hall _) hfewer (hall _)
    intro re hre
    rcases mem_effects_evict hre with ⟨_, h⟩ | ⟨_, _, h⟩ <;> cases h
  | clear => exact h.letGo (hall _) (List.nil_subset _) (hall _) (by simp [Table.clear])
  | relay split step => exact h.relay hwf split step
  | close split _ | abort split _ =>
    refine h.letGo (hall _) (hall _) ?_ (by simp)
    exact subset_of_split split

end Table

end Proxy

end ReverseTunnel

import ReverseTunnel.Proofs.Proxy.History

/-!
Nothing is lost, made up or reordered between a user and its data connection.

At every moment of every run, what a data connection has received is a prefix of the
handshake of its session and everything its user has sent, and what a user has
received is a prefix of everything its data connection has sent behind the handshake;
whoever is told of an end has received everything before (`transparent`).

This is read off the lanes while the two are paired. Before, nothing has gone out to
either, and from the step on that parts them nothing goes out any more.
-/

namespace ReverseTunnel

/-- One direction conveys: what came out is a prefix of `lead` and what was sent but
for its first `skip` bytes, and an end is told only behind all of it. -/
structure Conveys (lead : Bytes) (skip : Nat) (tr : Trail) (out : Bytes) (told : Prop) :
    Prop where
  within : out <+: lead ++ tr.sent.drop skip
  whole : told → tr.ended = true ∧ out = lead ++ tr.sent.drop skip

theorem Lane.conveys {r : Relay} {source : Side} {a : Account} {tr : Trail} {out : Bytes}
    {told : Prop} {taken : Bytes} (h : Lane r source a tr out told taken) :
    Conveys a.lead a.skip.length tr out told := by
  refine ⟨?_, ?_⟩
  · obtain ⟨more, hmore⟩ := h.held.within
    have hdrop : tr.sent.drop a.skip.length =
        taken ++ ((r.party source).socket.unread ++ more) := by
      rw [← hmore, List.append_assoc, List.append_assoc, List.drop_left]
    rw [hdrop, ← List.append_assoc, ← h.conveyed, List.append_assoc]
    exact List.prefix_append _ _
  · intro ht
    obtain ⟨hended, hsent, hopen⟩ := h.ended (h.told.mp ht)
    have hconv := h.conveyed
    simp only [hopen, pending, List.flatMap_nil, List.append_nil] at hconv
    refine ⟨hended, ?_⟩
    rw [hsent, List.drop_left, hconv]

namespace Conveys

variable {lead : Bytes} {skip : Nat} {tr : Trail} {out : Bytes} {told : Prop}

theorem of_silent (h : out = [] ∧ ¬ told) : Conveys lead skip tr out told :=
  ⟨h.1 ▸ List.nil_prefix, fun ht => absurd ht h.2⟩

/-- What is sent later changes nothing about what came out. -/
theorem grow (h : Conveys lead skip tr out told) {tr' : Trail} (hs : tr.sent <+: tr'.sent)
    (he : tr.ended = true → tr'.ended = true ∧ tr'.sent = tr.sent) :
    Conveys lead skip tr' out told := by
  refine ⟨?_, ?_⟩
  · obtain ⟨more, hmore⟩ := hs
    refine h.within.trans ((List.prefix_append_right_inj _).mpr ?_)
    rw [← hmore, List.drop_append]
    exact List.prefix_append _ _
  · intro ht
    obtain ⟨hended, hout⟩ := h.whole ht
    obtain ⟨hended', hsent'⟩ := he hended
    exact ⟨hended', hsent'.symm ▸ hout⟩

end Conveys

namespace Proxy.Exchange.Run

open Session

variable {ι : Type} [DecidableEq ι] {delays : ι → Nat} {first : UInt32} {r : Run delays first}
  {i : ι} {session : UInt32} {user data : Nat}

theorem trail_grows (key n : Nat) : (r.trail key n).sent <+: (r.trail key (n + 1)).sent ∧
    ((r.trail key n).ended = true →
      (r.trail key (n + 1)).ended = true ∧ (r.trail key (n + 1)).sent = (r.trail key n).sent) := by
  cases ho : r.happens n with
  | receive k a =>
    simp only [trail, ho]
    split
    · exact ⟨Trail.sent_receive _ _, fun he => Trail.receive_of_ended he a⟩
    · exact ⟨List.prefix_refl _, fun he => ⟨he, rfl⟩⟩
  | comeIn | act | advance =>
    rw [trail_succ_of_quiet (by simp [ho])]
    exact ⟨List.prefix_refl _, fun he => ⟨he, rfl⟩⟩

/-- Both directions between a user and a data connection convey. -/
def Transparent (r : Run delays first) (session : UInt32) (user data n : Nat) : Prop :=
  Conveys (Handshake.encode session) 0 (r.trail user n) (r.received data n) (r.Told data n) ∧
    Conveys [] Handshake.length (r.trail data n) (r.received user n) (r.Told user n)

theorem transparent_of_pairs {n : Nat} (hp : (r.table i n).Pairs session user data) :
    r.Transparent session user data n := by
  obtain ⟨p, hp, rfl, rfl, rfl⟩ := hp
  obtain ⟨_, up⟩ := (faithful i n).paired p hp .front
  obtain ⟨_, down⟩ := (faithful i n).paired p hp .back
  refine ⟨up.conveys, ?_⟩
  have hdown := down.conveys
  simp only [Paired.account, Handshake.length_encode] at hdown
  exact hdown

theorem silent_of_unpaired {key n : Nat} (hu : (r.state n).Unpaired key) :
    r.received key n = [] ∧ ¬ r.Told key n := by
  rcases hu with hk | ⟨j, hj⟩
  · exact silent_of_unborn n hk
  · exact (faithful j n).silent key hj

theorem transparent_succ_of_silent {n : Nat}
    (hs : ∀ key, key = user ∨ key = data →
      outgoing (r.effectsAt n) key = [] ∧ ¬ tells (r.effectsAt n) key)
    (h : r.Transparent session user data n) : r.Transparent session user data (n + 1) := by
  have hquiet : ∀ key, key = user ∨ key = data →
      r.received key (n + 1) = r.received key n ∧ (r.Told key (n + 1) ↔ r.Told key n) := by
    intro key hk
    obtain ⟨hout, htell⟩ := hs key hk
    rw [received_succ, told_succ, hout]
    simp [htell]
  have hgrow : ∀ {lead skip key out told}, Conveys lead skip (r.trail key n) out told →
      Conveys lead skip (r.trail key (n + 1)) out told := fun {_ _ key _ _} hc =>
    hc.grow (trail_grows key n).1 (trail_grows key n).2
  obtain ⟨hru, htu⟩ := hquiet user (.inl rfl)
  obtain ⟨hrd, htd⟩ := hquiet data (.inr rfl)
  unfold Transparent
  rw [hrd, hru, htd, htu]
  exact ⟨hgrow h.1, hgrow h.2⟩

theorem silent_of_parted {n : Nat} {p : Paired} (hp : p ∈ (r.table i n).paired)
    (hparted : ¬ (r.table i (n + 1)).Pairs p.session p.relay.front.key p.relay.back.key)
    {key : Nat} (hk : key ∈ Table.pairKeys p) :
    outgoing (r.effectsAt n) key = [] ∧ ¬ tells (r.effectsAt n) key := by
  have hwf := r.wellFormed n
  cases ho : r.happens n with
  | comeIn | receive | advance =>
    rw [Course.effectsAt, ho]
    exact silent_of_no_relay (by simp [step]) key
  | act j accepts task =>
    rw [effectsAt_of_act ho]
    -- only the relay of the pair could bring something, and it closes or aborts
    by_cases hrelay : ∃ e, j = i ∧ task = .relay p.relay.back.key e
    · obtain ⟨e, rfl, rfl⟩ := hrelay
      rw [table_succ_of_act ho] at hparted
      unfold turn Task.event Table.step at hparted ⊢
      rcases Table.relay_of_mem (hwf.tables j) hp e with
        ⟨r', es, hs, hmem, -⟩ | ⟨up, down, -, hes, -⟩ | ⟨-, hes, -⟩
      · exact absurd ⟨{ p with relay := r' }, hmem, rfl, Relay.key_of_goesOn hs .front,
          Relay.key_of_goesOn hs .back⟩ hparted
      · rw [hes]
        exact silent_of_no_relay (by simp) key
      · rw [hes]
        exact silent_of_no_relay (by simp) key
    · -- the relay of another pair reaches none of its connections
      apply Table.silent_of_move (move_turn hwf j accepts task)
      intro q hq e he hkq
      apply hrelay
      obtain rfl := hwf.apart j i key (Table.mem_keys_of_paired hq hkq)
        (Table.mem_keys_of_paired hp hk)
      obtain rfl := (hwf.tables j).pair_unique hp hq hk hkq
      cases task with
      | relay k re =>
        simp only [Task.event, TableEvent.relay.injEq] at he
        exact ⟨re, rfl, by rw [he.1]⟩
      | look | timeUp | evict | clear => cases he

theorem transparent {m : Nat} (hp : (r.table i m).Pairs session user data) (n : Nat) :
    r.Transparent session user data n := by
  rcases Nat.le_total n m with hnm | hmn
  · -- before the moment: paired already, or nothing has gone out to either
    rcases paired_or_unpaired hnm hp with hp | ⟨hu, hd⟩
    · exact transparent_of_pairs hp
    · exact ⟨.of_silent (silent_of_unpaired hd), .of_silent (silent_of_unpaired hu)⟩
  · -- after it: as long as they are paired, and nothing goes out once they are not
    induction hmn with
    | refl => exact transparent_of_pairs hp
    | step hle ih =>
      rename_i n
      by_cases hnext : (r.table i (n + 1)).Pairs session user data
      · exact transparent_of_pairs hnext
      refine transparent_succ_of_silent (fun key hk => ?_) ih
      rcases paired_or_gone hle hp with ⟨p, hpn, rfl, rfl, rfl⟩ | ⟨hu, hd⟩
      · exact silent_of_parted hpn hnext (by simpa [Table.pairKeys] using hk)
      · apply silent_at
        intro j hj
        rcases hk with rfl | rfl
        · exact hu.2 j (List.mem_append_right _ hj)
        · exact hd.2 j (List.mem_append_right _ hj)

end Proxy.Exchange.Run

end ReverseTunnel

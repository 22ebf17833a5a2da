import ReverseTunnel.Proofs.Finishing
import ReverseTunnel.Proofs.Proxy.Conveyance

/-!
A data proxy is transparent.

What is proved (`relays_transparently`):
1. Nothing is lost, made up or reordered between a user and its data connection, and whoever is
   told of an end has received everything before.
2. If both end in order and the relay is kept going, everything arrives, both are told of the
   end, and the relay counts exactly what it has conveyed. The measure is the work that is left
   of the relay: once both sides have ended, no arrival adds to it (`work_receive`), every step
   that changes something takes of it, and there is such a step until the relay closes.

What is assumed: nothing for the first. For the second, that both far ends finish sending and go
on taking (`Orderly`), and that the relay takes a step whenever it can and none of its transports
fails (`KeptGoing`).

What is not said: how long it takes, and what is left undelivered when a far end goes away.
-/

namespace ReverseTunnel

/-- What a lane has counted when its end is told is the length of what it conveyed. -/
theorem Lane.counted_of_told {r : Relay} {source : Side} {a : Account} {tr : Trail} {out : Bytes}
    {told : Prop} {taken : Bytes} (h : Lane r source a tr out told taken) (ht : told) :
    a.judged + (r.flow source).copied = (tr.sent.drop a.skip.length).length := by
  obtain ⟨-, hsent, -⟩ := h.ended (h.told.mp ht)
  rw [hsent, List.drop_left]
  exact h.counted

namespace Relay

theorem left_receive {s : Socket} {f : Flow} {a : Arrival} (ended : s.remoteEnded = true)
    (there : (s.receive a).remoteGone = false) : left (s.receive a) f = left s f := by
  cases a with
  | bytes bs => simp [Socket.receive, ended]
  | ended => rfl
  | gone | reset => cases there

theorem work_receive {r : Relay} {key : Nat} {a : Arrival}
    (ended : ∀ side, (r.party side).socket.remoteEnded = true)
    (there : ∀ side, ((r.receive key a).party side).socket.remoteGone = false) :
    (r.receive key a).work = r.work := by
  have hside : ∀ (p : Party) (f : Flow), p.socket.remoteEnded = true →
      (p.receive key a).socket.remoteGone = false →
      left (p.receive key a).socket f = left p.socket f := by
    intro p f he ht
    rw [Party.socket_receive] at ht ⊢
    split at ht
    · rename_i hk
      rw [if_pos hk]
      exact left_receive he ht
    · rename_i hk
      rw [if_neg hk]
  have hfront := hside r.front r.fromFront (ended .front) (there .front)
  have hback := hside r.back r.fromBack (ended .back) (there .back)
  simp only [work, receive, hfront, hback]

end Relay

namespace Proxy.Exchange.Run

open Session

variable {ι : Type} [DecidableEq ι] {delays : ι → Nat} {first : UInt32} {r : Run delays first}
  {i : ι} {session : UInt32} {user data : Nat}

/-- The far end of a connection ends in order: it finishes sending at some moment, and
goes on taking for ever. -/
structure Orderly (r : Run delays first) (key : Nat) : Prop where
  ends : ∃ n, (r.trail key n).ended = true
  stays : ∀ n, (r.trail key n).gone = false

theorem gone_eq_false {key : Nat} (hgone : ∀ n, r.happens n ≠ .receive key .gone)
    (hreset : ∀ n, r.happens n ≠ .receive key .reset) (n : Nat) :
    (r.trail key n).gone = false := by
  induction n with
  | zero => rfl
  | succ n ih =>
    cases ho : r.happens n with
    | receive k a =>
      simp only [trail, ho]
      split
      · rename_i hk
        obtain ⟨rfl, -⟩ := hk
        cases a with
        | bytes bs =>
          simp only [Trail.receive]
          split <;> exact ih
        | ended => exact ih
        | gone => exact absurd ho (hgone n)
        | reset => exact absurd ho (hreset n)
      · exact ih
    | comeIn | act | advance =>
      rw [trail_succ_of_quiet (by simp [ho])]
      exact ih

/-- The relay of a data connection takes a step that changes something. -/
def Advanced (r : Run delays first) (i : ι) (data n : Nat) : Prop :=
  ∃ accepts e, r.happens n = .act i accepts (.relay data e) ∧
    ∃ p ∈ (r.table i n).paired, p.relay.back.key = data ∧ p.relay.Advances e

/-- The relay of a data connection is kept going: whenever it can take a step that
changes something it takes one some time later, and no transport of it fails. -/
structure KeptGoing (r : Run delays first) (i : ι) (data : Nat) : Prop where
  fair : ∀ n, ∀ p ∈ (r.table i n).paired, p.relay.back.key = data →
    (∃ e, e ≠ .fail ∧ p.relay.Advances e) → ∃ k, n ≤ k ∧ r.Advanced i data k
  sound : ∀ n j accepts, r.happens n ≠ .act j accepts (.relay data .fail)

/-! ## The end of a relay -/

/-- The relay of a pair closes at a moment. -/
def Closes (r : Run delays first) (i : ι) (p : Paired) (n : Nat) : Prop :=
  ∃ accepts e up down, r.happens n = .act i accepts (.relay p.relay.back.key e) ∧
    p.relay.step e = .closes up down

/-- Two pairs join the same connections. -/
def SameSides (q p : Paired) : Prop :=
  ∀ side, (q.relay.party side).key = (p.relay.party side).key

/-- Neither side of a pair ever goes away. -/
def Steady (r : Run delays first) (p : Paired) : Prop :=
  ∀ side n, (r.trail (p.relay.party side).key n).gone = false

/-- Both sides of a pair have ended before a moment. -/
def Ended (r : Run delays first) (p : Paired) (n : Nat) : Prop :=
  ∀ side, (r.trail (p.relay.party side).key n).ended = true

theorem trail_from {key m n : Nat} (hmn : m ≤ n) (he : (r.trail key m).ended = true) :
    (r.trail key n).ended = true ∧ (r.trail key n).sent = (r.trail key m).sent := by
  induction hmn with
  | refl => exact ⟨he, rfl⟩
  | step _ ih =>
    obtain ⟨he', hs'⟩ := (trail_grows key _).2 ih.1
    exact ⟨he', hs'.trans ih.2⟩

theorem Steady.of_same {p q : Paired} (h : r.Steady p) (hq : SameSides q p) : r.Steady q :=
  fun side => hq side ▸ h side

theorem Ended.of_same {p q : Paired} {m n : Nat} (h : r.Ended p m) (hmn : m ≤ n)
    (hq : SameSides q p) : r.Ended q n :=
  fun side => hq side ▸ (trail_from hmn (h side)).1

theorem Steady.sockets {p : Paired} (h : r.Steady p) {n : Nat} (hp : p ∈ (r.table i n).paired)
    (side : Side) : (p.relay.party side).socket.remoteGone = false ∧
      (p.relay.party side).socket.broken = false := by
  obtain ⟨_, hl⟩ := (faithful i n).paired p hp side
  exact hl.held.sound (h side n)

theorem Ended.sockets {p : Paired} {n : Nat} (h : r.Ended p n) (hp : p ∈ (r.table i n).paired)
    (side : Side) : (p.relay.party side).socket.remoteEnded = true := by
  obtain ⟨_, hl⟩ := (faithful i n).paired p hp side
  exact hl.held.ended.trans (h side)

/-- A pair goes on, and once both sides have ended it goes on with no more work than
before, and with less if its relay advances. -/
def GoesOn (r : Run delays first) (i : ι) (p : Paired) (n : Nat) : Prop :=
  ∃ q ∈ (r.table i (n + 1)).paired, SameSides q p ∧
    (r.Ended p n → q.relay.work ≤ p.relay.work ∧
      (r.Advanced i p.relay.back.key n → q.relay.work < p.relay.work))

theorem next_of_relay {p : Paired} {n : Nat} {accepts : Bool} {e : RelayEvent}
    (hp : p ∈ (r.table i n).paired) (hs : r.Steady p) (he : e ≠ .fail)
    (ho : r.happens n = .act i accepts (.relay p.relay.back.key e)) :
    r.Closes i p n ∨ r.GoesOn i p n := by
  have hwf := (r.wellFormed n).tables i
  unfold GoesOn
  rw [table_succ_of_act ho]
  rcases Table.relay_of_mem (w := (r.state n).around accepts) hwf hp e with
    ⟨r', es, hstep, hmem, -⟩ | ⟨up, down, hstep, -⟩ | ⟨hstep, -⟩
  · -- the relay goes on, with less to do if it has advanced
    refine .inr ⟨{ p with relay := r' }, hmem, Relay.key_of_goesOn hstep, fun _ => ⟨?_, ?_⟩⟩
    · by_cases ha : p.relay.Advances e
      · exact Nat.le_of_lt (Relay.work_lt_of_goesOn hstep ha)
      · have hsame : p.relay.step e = .goesOn p.relay [] := Decidable.not_not.mp ha
        rw [hstep] at hsame
        cases hsame
        exact Nat.le_refl _
    · rintro ⟨accepts', e', ho', q, hq, hk, ha⟩
      rw [ho] at ho'
      cases ho'
      rw [hwf.eq_of_back hq hp hk] at ha
      exact Relay.work_lt_of_goesOn hstep ha
  · exact .inl ⟨accepts, e, up, down, ho, hstep⟩
  · exact absurd hstep (Relay.step_ne_aborts he (fun side => (hs.sockets hp side).1)
      fun side => (hs.sockets hp side).2)

theorem goesOn_of_receive {p : Paired} {n k : Nat} {a : Arrival} (hp : p ∈ (r.table i n).paired)
    (hs : r.Steady p) (ho : r.happens n = .receive k a)
    (hstill : ¬ r.Advanced i p.relay.back.key n) : r.GoesOn i p n := by
  have hmem : { p with relay := p.relay.receive k a } ∈ (r.table i (n + 1)).paired := by
    rw [table_succ, ho]
    exact List.mem_map_of_mem hp
  have hkey : SameSides { p with relay := p.relay.receive k a } p :=
    fun side => by cases side <;> exact Party.key_receive _ _ _
  -- an arrival adds no work once both sides have ended
  refine ⟨_, hmem, hkey, fun he => ⟨Nat.le_of_eq ?_, fun ha => absurd ha hstill⟩⟩
  exact Relay.work_receive (he.sockets hp) fun side => ((hs.of_same hkey).sockets hmem side).1

theorem goesOn_of_mem {p : Paired} {n : Nat} (hp : p ∈ (r.table i (n + 1)).paired)
    (hstill : ¬ r.Advanced i p.relay.back.key n) : r.GoesOn i p n :=
  ⟨p, hp, fun _ => rfl, fun _ => ⟨Nat.le_refl _, fun ha => absurd ha hstill⟩⟩

/-- A pair stays as it is while neither its relay nor a far end acts. -/
theorem mem_paired_succ {p : Paired} {n : Nat} (hp : p ∈ (r.table i n).paired)
    (hrelay : ∀ accepts e, r.happens n ≠ .act i accepts (.relay p.relay.back.key e))
    (hreceive : ∀ k a, r.happens n ≠ .receive k a) : p ∈ (r.table i (n + 1)).paired := by
  rw [table_succ]
  cases ho : r.happens n with
  | receive k a => exact absurd ho (hreceive k a)
  | comeIn j =>
    simp only [step, tables_change]
    split
    · rename_i hij
      subst hij
      exact hp
    · exact hp
  | advance ms => exact hp
  | act j accepts task =>
    simp only [step, tables_change]
    split
    · rename_i hij
      subst hij
      have hm := move_turn (r.wellFormed n) i accepts task
      apply Table.mem_paired_of_move hm hp _ (event_ne_receive task)
      intro e he
      cases task with
      | relay key e' =>
        simp only [Task.event, TableEvent.relay.injEq] at he
        exact hrelay accepts e' (by rw [ho, he.1])
      | look | timeUp | evict | clear => cases he
    · exact hp

/-- A pair whose sides stay and whose relay is kept going closes or goes on. -/
theorem next {p : Paired} {n : Nat} (hp : p ∈ (r.table i n).paired) (hs : r.Steady p)
    (hk : r.KeptGoing i p.relay.back.key) : r.Closes i p n ∨ r.GoesOn i p n := by
  by_cases hrelay : ∃ accepts e, r.happens n = .act i accepts (.relay p.relay.back.key e)
  · obtain ⟨accepts, e, ho⟩ := hrelay
    apply next_of_relay hp hs _ ho
    rintro rfl
    exact hk.sound n i accepts ho
  have hstill : ¬ r.Advanced i p.relay.back.key n := by
    rintro ⟨accepts, e, ho, -⟩
    exact hrelay ⟨accepts, e, ho⟩
  right
  by_cases hreceive : ∃ k a, r.happens n = .receive k a
  · obtain ⟨k, a, ho⟩ := hreceive
    exact goesOn_of_receive hp hs ho hstill
  · have hmem : p ∈ (r.table i (n + 1)).paired := by
      apply mem_paired_succ hp
      · intro accepts e ho
        exact hrelay ⟨accepts, e, ho⟩
      · intro k a ho
        exact hreceive ⟨k, a, ho⟩
    exact goesOn_of_mem hmem hstill

/-- A pair closes at some moment. -/
def Finishes (r : Run delays first) (i : ι) (p : Paired) : Prop :=
  ∃ n, ∃ q ∈ (r.table i n).paired, SameSides q p ∧ r.Closes i q n

/-- A pair whose sides stay closes at some moment, or is there at a given one. -/
theorem finishes_or_there {p : Paired} {m n : Nat} (hmn : m ≤ n) (hp : p ∈ (r.table i m).paired)
    (hs : r.Steady p) (hk : r.KeptGoing i p.relay.back.key) :
    r.Finishes i p ∨ ∃ q ∈ (r.table i n).paired, SameSides q p ∧
      (r.Ended p m → q.relay.work ≤ p.relay.work) := by
  induction hmn with
  | refl => exact .inr ⟨p, hp, fun _ => rfl, fun _ => Nat.le_refl _⟩
  | step hle ih =>
    rcases ih with hfin | ⟨q, hq, hsame, hwork⟩
    · exact .inl hfin
    · have hback : q.relay.back.key = p.relay.back.key := hsame .back
      rcases next hq (hs.of_same hsame) (hback ▸ hk) with hc | ⟨q', hq', hsame', hwork'⟩
      · exact .inl ⟨_, q, hq, hsame, hc⟩
      · exact .inr ⟨q', hq', fun side => (hsame' side).trans (hsame side), fun he =>
          Nat.le_trans (hwork' (he.of_same hle hsame)).1 (hwork he)⟩

theorem Finishes.of_same {p q : Paired} (h : r.Finishes i q) (hsame : SameSides q p) :
    r.Finishes i p := by
  obtain ⟨n, q', hq', hsame', hc⟩ := h
  exact ⟨n, q', hq', fun side => (hsame' side).trans (hsame side), hc⟩

theorem finishes_of_ended {p : Paired} {n : Nat} (hp : p ∈ (r.table i n).paired)
    (hs : r.Steady p) (he : r.Ended p n) (hk : r.KeptGoing i p.relay.back.key) :
    r.Finishes i p := by
  -- on the work that is left, which the next advance makes less
  induction hw : p.relay.work using Nat.strongRecOn generalizing p n with
  | ind w ih =>
    have hcan := Relay.can_advance (fun side => (hs.sockets hp side).1)
      (fun side => (hs.sockets hp side).2) (he.sockets hp)
    obtain ⟨k, hnk, hadv⟩ := hk.fair n p hp rfl hcan
    rcases finishes_or_there hnk hp hs hk with hfin | ⟨q, hq, hsame, hwork⟩
    · exact hfin
    have hback : q.relay.back.key = p.relay.back.key := hsame .back
    have heq : r.Ended q k := he.of_same hnk hsame
    rcases next hq (hs.of_same hsame) (hback ▸ hk) with hc | ⟨q', hq', hsame', hless⟩
    · exact ⟨k, q, hq, hsame, hc⟩
    have hlt : q'.relay.work < w := by
      have hle := hwork he
      have := (hless heq).2 (hback ▸ hadv)
      omega
    have hback' : q'.relay.back.key = p.relay.back.key := (hsame' .back).trans hback
    have hsame'' : SameSides q' p := fun side => (hsame' side).trans (hsame side)
    exact (ih _ hlt hq' (hs.of_same hsame'') (heq.of_same (Nat.le_succ k) hsame')
      (hback' ▸ hk) rfl).of_same hsame''

/-- A pair whose sides end in order and whose relay is kept going closes. -/
theorem finishes {p : Paired} {n : Nat} (hp : p ∈ (r.table i n).paired)
    (hends : ∀ side, r.Orderly (p.relay.party side).key)
    (hk : r.KeptGoing i p.relay.back.key) : r.Finishes i p := by
  have hs : r.Steady p := fun side => (hends side).stays
  obtain ⟨f, hf⟩ := (hends .front).ends
  obtain ⟨b, hb⟩ := (hends .back).ends
  -- a moment at which the pair was made and both sides have ended
  let m := max n (max f b)
  have hnm : n ≤ m := Nat.le_max_left _ _
  have hfm : f ≤ m := Nat.le_trans (Nat.le_max_left _ _) (Nat.le_max_right _ _)
  have hbm : b ≤ m := Nat.le_trans (Nat.le_max_right _ _) (Nat.le_max_right _ _)
  rcases finishes_or_there hnm hp hs hk with hfin | ⟨q, hq, hsame, -⟩
  · exact hfin
  have hback : q.relay.back.key = p.relay.back.key := hsame .back
  have he : r.Ended q m := fun side => by
    rw [hsame side]
    cases side with
    | front => exact (trail_from hfm hf).1
    | back => exact (trail_from hbm hb).1
  exact (finishes_of_ended hq (hs.of_same hsame) he (hback ▸ hk)).of_same hsame

/-! ## What the relay counts -/

theorem effectsAt_of_absent {n : Nat} {j : ι} {accepts : Bool} {e : RelayEvent}
    (ho : r.happens n = .act j accepts (.relay data e))
    (h : ∀ p ∈ (r.table j n).paired, p.relay.back.key ≠ data) : r.effectsAt n = [] := by
  rw [effectsAt_of_act ho]
  show (Table.relay _ _ _ _).effects = []
  rw [Table.relay_of_unpaired h]

theorem grown_succ_of_absent {n : Nat}
    (h : ∀ j, ∀ p ∈ (r.table j n).paired, p.relay.back.key ≠ data) (m : Metric) :
    r.grown m data (n + 1) = r.grown m data n := by
  by_cases hrelay : ∃ j accepts e, r.happens n = .act j accepts (.relay data e)
  · obtain ⟨j, accepts, e, ho⟩ := hrelay
    rw [grown_succ_of_relay ho, effectsAt_of_absent ho (h j)]
    exact Int.add_zero _
  · exact grown_succ_of_other (fun j accepts e ho => hrelay ⟨j, accepts, e, ho⟩) m

theorem absent_of_gone {n : Nat} (h : (r.state n).Gone data) (j : ι) :
    ∀ p ∈ (r.table j n).paired, p.relay.back.key ≠ data := by
  intro p hp hk
  apply h.2 j
  exact Table.mem_keys_of_paired hp (by simp [Table.pairKeys, hk])

theorem absent_of_unpaired {n : Nat} (h : (r.state n).Unpaired data) (j : ι) :
    ∀ p ∈ (r.table j n).paired, p.relay.back.key ≠ data := by
  intro p hp hk
  have hpairs : (r.table j n).Pairs p.session p.relay.front.key data := ⟨p, hp, rfl, rfl, hk⟩
  exact not_unpaired_of_pairs (r.wellFormed n) hpairs (.inr rfl) h

theorem grown_of_gone {m n : Nat} (hmn : m ≤ n) (h : (r.state m).Gone data) (metric : Metric) :
    r.grown metric data n = r.grown metric data m := by
  induction hmn with
  | refl => rfl
  | step hle ih => rw [grown_succ_of_absent (absent_of_gone (gone hle h)), ih]

theorem grown_of_unpaired {n : Nat} (h : (r.state n).Unpaired data) (m : Metric) :
    r.grown m data n = 0 := by
  induction n with
  | zero => rfl
  | succ n ih =>
    have hn : (r.state n).Unpaired data := unpaired (Nat.le_succ n) h
    rw [grown_succ_of_absent (absent_of_unpaired hn), ih hn]

theorem not_pairs_of_part {t : Table} {ps : List Paired} (h : t.paired = Table.part data ps)
    (s : UInt32) (u : Nat) : ¬ t.Pairs s u data := by
  rintro ⟨q, hq, -, -, hk⟩
  rw [h] at hq
  simp [Table.part, hk] at hq

theorem grown_succ_of_pairs {n : Nat} (hp : (r.table i n).Pairs session user data)
    (hnext : (r.table i (n + 1)).Pairs session user data) (m : Metric) :
    r.grown m data (n + 1) = r.grown m data n := by
  by_cases hrelay : ∃ j accepts e, r.happens n = .act j accepts (.relay data e)
  · obtain ⟨j, accepts, e, ho⟩ := hrelay
    have hwf := r.wellFormed n
    suffices hnone : amount m (r.effectsAt n) = 0 by
      rw [grown_succ_of_relay ho, hnone, Int.add_zero]
    by_cases hij : j = i
    · subst hij
      obtain ⟨p, hp, rfl, rfl, rfl⟩ := hp
      rw [effectsAt_of_act ho]
      rw [table_succ_of_act ho] at hnext
      unfold turn Task.event Table.step at hnext ⊢
      rcases Table.relay_of_mem (hwf.tables j) hp e with
        ⟨r', es, -, -, hes⟩ | ⟨up, down, -, -, hpart⟩ | ⟨-, -, hpart⟩
      · rw [hes]
        exact amount_relay m es
      · exact absurd hnext (not_pairs_of_part hpart _ _)
      · exact absurd hnext (not_pairs_of_part hpart _ _)
    · rw [effectsAt_of_absent ho fun q hq hk => hij ?_]
      · rfl
      · have hthere : data ∈ (r.table j n).keys :=
          Table.mem_keys_of_paired hq (by simp [Table.pairKeys, hk])
        exact hwf.apart j i data hthere (hp.mem_keys (.inr rfl))
  · exact grown_succ_of_other (fun j accepts e ho => hrelay ⟨j, accepts, e, ho⟩) m

theorem grown_of_pairs {n : Nat} (hp : (r.table i n).Pairs session user data) (m : Metric) :
    r.grown m data n = 0 := by
  induction n with
  | zero =>
    obtain ⟨p, hp, -⟩ := hp
    cases hp
  | succ n ih =>
    rcases paired_or_unpaired (Nat.le_succ n) hp with hn | ⟨-, hd⟩
    · rw [grown_succ_of_pairs hn hp, ih hn]
    · rw [grown_succ_of_absent (absent_of_unpaired hd), grown_of_unpaired hd]

/-! ## The end of a pair that closes -/

theorem told_from {key m n : Nat} (hmn : m ≤ n) (h : r.Told key m) : r.Told key n := by
  induction hmn with
  | refl => exact h
  | step _ ih => exact (told_succ _ _).mpr (.inl ih)

/-- When a relay closes both sides have been told of the end. -/
theorem told_of_closes {p : Paired} {n : Nat} (hp : p ∈ (r.table i n).paired)
    (hc : r.Closes i p n) (side : Side) : r.Told (p.relay.party side.other).key n := by
  obtain ⟨-, e, up, down, -, hs⟩ := hc
  have hm := Relay.move_step (r := p.relay) e
  rw [hs] at hm
  obtain ⟨_, hl⟩ := (faithful i n).paired p hp side
  cases hm with
  | close front back =>
    cases side with
    | front => exact hl.told.mpr front
    | back => exact hl.told.mpr back

theorem gone_of_closes {p : Paired} {n : Nat} (hp : p ∈ (r.table i n).paired)
    (hc : r.Closes i p n) : (r.state (n + 1)).Gone p.relay.back.key := by
  obtain ⟨accepts, e, up, down, ho, hs⟩ := hc
  rcases paired_or_gone (r := r) (Nat.le_succ n) ⟨p, hp, rfl, rfl, rfl⟩ with hnext | ⟨-, hd⟩
  · rw [table_succ_of_act ho] at hnext
    unfold turn Task.event Table.step at hnext
    rcases Table.relay_of_mem ((r.wellFormed n).tables i) hp e with
      ⟨r', es, hs', -⟩ | ⟨_, _, -, -, hpart⟩ | ⟨hs', -⟩
    · rw [hs] at hs'
      cases hs'
    · exact absurd hnext (not_pairs_of_part hpart _ _)
    · rw [hs] at hs'
      cases hs'
  · exact hd

theorem amount_of_closes (m : Metric) (up down : Int) (user data : Nat) :
    amount m [.count ⟨.relayIngressBytes, up⟩, .count ⟨.relayEgressBytes, down⟩, .drop user,
      .drop data] =
      (if m = .relayIngressBytes then up else 0) +
        ((if m = .relayEgressBytes then down else 0) + 0) := rfl

/-- A relay that closes has counted the whole streams. -/
theorem grown_of_closes {p : Paired} {n : Nat} (hp : p ∈ (r.table i n).paired)
    (hc : r.Closes i p n) :
    r.grown .relayIngressBytes p.relay.back.key (n + 1) =
      (r.trail p.relay.front.key n).sent.length ∧
    r.grown .relayEgressBytes p.relay.back.key (n + 1) =
      ((r.trail p.relay.back.key n).sent.drop Handshake.length).length := by
  have htold := told_of_closes hp hc
  obtain ⟨_, up⟩ := (faithful i n).paired p hp .front
  obtain ⟨_, down⟩ := (faithful i n).paired p hp .back
  have hup := up.counted_of_told (htold .front)
  have hdown := down.counted_of_told (htold .back)
  -- all that is counted is counted in the step that closes
  have hzero := grown_of_pairs (r := r) (i := i) (n := n) ⟨p, hp, rfl, rfl, rfl⟩
  obtain ⟨accepts, e, upward, downward, ho, hs⟩ := hc
  rw [grown_succ_of_relay ho, grown_succ_of_relay ho, hzero, hzero, effectsAt_of_act ho]
  unfold turn Task.event Table.step
  rcases Table.relay_of_mem (w := (r.state n).around accepts) ((r.wellFormed n).tables i) hp e with
    ⟨r', es, hs', -⟩ | ⟨_, _, hs', hes, -⟩ | ⟨hs', -⟩
  · rw [hs] at hs'
    cases hs'
  · have hm := Relay.move_step (r := p.relay) e
    rw [hs'] at hm
    cases hm with
    | close front back =>
      rw [hes]
      simp only [Paired.account, Handshake.length_encode, List.length_nil, List.drop_zero,
        Relay.flow, Relay.party] at hup hdown
      rw [← hup, ← hdown]
      simp [amount_of_closes, Int.add_comm]
  · rw [hs] at hs'
    cases hs'

/-! ## Transparency -/

/-- A data proxy is transparent: to a user and a data connection that are ever paired
it brings at every moment prefixes of what they are to get, and an end only behind all
of it; and if both end in order and their relay is kept going, then from some moment on
both have everything and were told of the end, and exactly that much was counted. -/
theorem relays_transparently (r : Run delays first) {m : Nat}
    (paired : (r.table i m).Pairs session user data) :
    (∀ n,
      r.received data n <+: Handshake.encode session ++ (r.trail user n).sent ∧
      r.received user n <+: (r.trail data n).sent.drop Handshake.length ∧
      (r.Told data n → (r.trail user n).ended = true ∧
        r.received data n = Handshake.encode session ++ (r.trail user n).sent) ∧
      (r.Told user n → (r.trail data n).ended = true ∧
        r.received user n = (r.trail data n).sent.drop Handshake.length)) ∧
    (r.Orderly user → r.Orderly data → r.KeptGoing i data →
      ∃ k, ∀ n, k ≤ n →
        r.received data n = Handshake.encode session ++ (r.trail user n).sent ∧
        r.received user n = (r.trail data n).sent.drop Handshake.length ∧
        r.Told data n ∧ r.Told user n ∧
        r.grown .relayIngressBytes data n = (r.trail user n).sent.length ∧
        r.grown .relayEgressBytes data n =
          ((r.trail data n).sent.drop Handshake.length).length) := by
  refine ⟨?_, ?_⟩
  · intro n
    obtain ⟨up, down⟩ := transparent paired n
    exact ⟨up.within, down.within, up.whole, down.whole⟩
  intro huser hdata hkept
  obtain ⟨p, hp, rfl, rfl, rfl⟩ := paired
  have hends : ∀ side, r.Orderly (p.relay.party side).key := fun side => by
    cases side with
    | front => exact huser
    | back => exact hdata
  obtain ⟨k, q, hq, hsame, hc⟩ := finishes hp hends hkept
  have huq : q.relay.front.key = p.relay.front.key := hsame .front
  have hdq : q.relay.back.key = p.relay.back.key := hsame .back
  have htd : r.Told p.relay.back.key k := hdq ▸ told_of_closes hq hc .front
  have htu : r.Told p.relay.front.key k := huq ▸ told_of_closes hq hc .back
  have hgone : (r.state (k + 1)).Gone p.relay.back.key := hdq ▸ gone_of_closes hq hc
  have hgrown := grown_of_closes hq hc
  rw [huq, hdq] at hgrown
  refine ⟨k + 1, ?_⟩
  intro n hn
  have hkn : k ≤ n := Nat.le_of_succ_le hn
  obtain ⟨up, down⟩ := transparent ⟨p, hp, rfl, rfl, rfl⟩ n
  obtain ⟨upk, downk⟩ := transparent ⟨p, hp, rfl, rfl, rfl⟩ k
  -- what was sent when the relay closed is all that is ever sent
  have hus := (trail_from hkn (upk.whole htd).1).2
  have hds := (trail_from hkn (downk.whole htu).1).2
  refine ⟨(up.whole (told_from hkn htd)).2, (down.whole (told_from hkn htu)).2,
    told_from hkn htd, told_from hkn htu, ?_, ?_⟩
  · rw [grown_of_gone hn hgone, hgrown.1, hus]
  · rw [grown_of_gone hn hgone, hgrown.2, hds]

/-- A user sends three bytes, the last of them while it is paired, a data connection
one behind its handshake, and both end. -/
def exchangeOfFour : Run (fun _ : Unit => 1000) 1 :=
  .of [.comeIn (), .receive 1 (.bytes [71, 69]), .act () true (.look 1), .comeIn (),
    .receive 2 (.bytes (Handshake.encode 1 ++ [72])), .act () true (.look 2),
    .receive 1 (.bytes [84]), .act () true (.relay 2 (.write 8)),
    .act () true (.relay 2 (.write 2)), .act () true (.relay 2 (.write 1)),
    .act () true (.relay 2 (.copy .front 1)), .receive 1 .ended, .receive 2 .ended,
    .act () true (.relay 2 (.forwardEnd .front)), .act () true (.relay 2 (.forwardEnd .back)),
    .act () true (.relay 2 .close)] (.advance 0)

theorem orderly_exchangeOfFour :
    exchangeOfFour.Orderly 1 ∧ exchangeOfFour.Orderly 2 := by
  have hmem := Course.happens_mem (c := exchangeOfFour) rfl
  refine ⟨⟨⟨13, by decide⟩, gone_eq_false (fun n hn => ?_) fun n hn => ?_⟩,
    ⟨⟨13, by decide⟩, gone_eq_false (fun n hn => ?_) fun n hn => ?_⟩⟩
  all_goals
    have := hn ▸ hmem n
    revert this
    decide

theorem keptGoing_exchangeOfFour : exchangeOfFour.KeptGoing () 2 where
  fair n p hp _ _ := by
    rcases Nat.lt_or_ge n 16 with hn | hn
    · refine ⟨15, Nat.le_of_lt_succ hn, true, .close, rfl, ?_⟩
      show ∃ p ∈ (exchangeOfFour.table () 15).paired,
        p.relay.back.key = 2 ∧ p.relay.step .close ≠ .goesOn p.relay []
      decide
    · -- the relay has closed
      have hstate : exchangeOfFour.state n = exchangeOfFour.state 16 :=
        (Course.still_of_le (c := exchangeOfFour) rfl (fun _ => rfl) hn).1
      rw [table, hstate] at hp
      cases hp
  sound n j accepts hn := by
    have := hn ▸ Course.happens_mem (c := exchangeOfFour) rfl n
    revert this
    cases j
    cases accepts <;> decide

theorem relays_transparently_exchangeOfFour :
    (exchangeOfFour.table () 6).Pairs 1 1 2 ∧ exchangeOfFour.Orderly 1 ∧
      exchangeOfFour.Orderly 2 ∧ exchangeOfFour.KeptGoing () 2 ∧
      exchangeOfFour.received 2 10 <+: Handshake.encode 1 ++ (exchangeOfFour.trail 1 10).sent ∧
      ∃ k, ∀ n, k ≤ n →
        exchangeOfFour.received 2 n = Handshake.encode 1 ++ (exchangeOfFour.trail 1 n).sent ∧
        exchangeOfFour.Told 2 n ∧
        exchangeOfFour.grown .relayIngressBytes 2 n = (exchangeOfFour.trail 1 n).sent.length := by
  have paired : (exchangeOfFour.table () 6).Pairs 1 1 2 := by
    show ∃ p ∈ _, _
    decide
  obtain ⟨huser, hdata⟩ := orderly_exchangeOfFour
  have hkept := keptGoing_exchangeOfFour
  obtain ⟨hsafe, hlive⟩ := relays_transparently exchangeOfFour paired
  obtain ⟨k, hk⟩ := hlive huser hdata hkept
  refine ⟨paired, huser, hdata, hkept, (hsafe 10).1, k, ?_⟩
  intro n hn
  obtain ⟨hall, -, htold, -, hcount, -⟩ := hk n hn
  exact ⟨hall, htold, hcount⟩

end Proxy.Exchange.Run

end ReverseTunnel

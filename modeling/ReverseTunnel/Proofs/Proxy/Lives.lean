import ReverseTunnel.Proofs.Proxy.Exchange

/-!
The life of a connection in an exchange.

A connection comes in, is judged, may wait under a session id, may be paired, and is
gone. Read backwards, a user that waits was judged and a pair was a user that waited
and a data connection that was judged. Read forwards, a pair stays one pair until both
of its connections are gone (`paired_or_gone`), and what is gone stays gone (`gone`).
-/

namespace ReverseTunnel.Proxy

open Session

namespace Exchange

variable {ι : Type}

/-- A connection was here and is in no table any more. -/
def Gone (x : Exchange ι) (key : Nat) : Prop :=
  key < x.nextKey ∧ ∀ i, key ∉ (x.tables i).keys

/-- A connection has not come in, is being judged, or waits. -/
def Unpaired (x : Exchange ι) (key : Nat) : Prop :=
  x.nextKey ≤ key ∨ ∃ i, (x.tables i).Judges key ∨ ∃ session, (x.tables i).Waits key session

variable {x : Exchange ι} {o : Occurrence ι} {i : ι}

theorem not_unpaired_of_pairs (h : x.WellFormed) {session : UInt32} {user data key : Nat}
    (hp : (x.tables i).Pairs session user data) (hk : key = user ∨ key = data) :
    ¬ x.Unpaired key := by
  have hkey : key ∈ (x.tables i).keys := hp.mem_keys hk
  rintro (hle | ⟨j, hjw⟩)
  · exact absurd (h.known i key hkey) (by omega)
  · have hj : key ∈ (x.tables j).keys := by
      rcases hjw with hj | ⟨s, hw⟩
      · exact hj.mem_keys
      · exact hw.mem_keys
    -- judged or waiting at the same table, which cannot be
    obtain rfl := h.apart j i key hj hkey
    obtain ⟨hu, hd⟩ := (h.tables j).ne_of_pairs hp hjw
    exact hk.elim hu hd

variable [DecidableEq ι]

/-! ## Backwards -/

/-- A user that was judged is taken for one, gets the next id and is announced. -/
structure Registers (x : Exchange ι) (o : Occurrence ι) (i : ι) (user : Nat) (session : UInt32) :
    Prop where
  judged : (x.tables i).Judges user
  next : session = x.ids.next
  announced : .announce session ∈ (x.step o).2
  work : ∃ accepts, o = .act i accepts (.look user) ∨ o = .act i accepts (.timeUp user)

/-- A data connection is looked at that has sent the handshake of the session of a user
that waits. -/
structure Binds (x : Exchange ι) (o : Occurrence ι) (i : ι) (session : UInt32) (user data : Nat) :
    Prop where
  presents : (x.tables i).Presents data session
  waits : (x.tables i).Waits user session
  work : ∃ accepts, o = .act i accepts (.look data)

theorem judges_of_step (h : x.WellFormed) {key : Nat}
    (hj : ((x.step o).1.tables i).Judges key) :
    (x.tables i).Judges key ∨ (key = x.nextKey ∧ o = .comeIn i) := by
  obtain ⟨w, e, r, ht⟩ := move_table h o i
  rw [ht.table] at hj
  rcases Table.judges_step ht.move hj with hj | rfl
  · exact .inl hj
  · exact .inr (ht.accept key rfl)

theorem waits_of_step (h : x.WellFormed) {user : Nat} {session : UInt32}
    (hw : ((x.step o).1.tables i).Waits user session) :
    (x.tables i).Waits user session ∨ Registers x o i user session := by
  obtain ⟨w, e, r, ht⟩ := move_table h o i
  rw [ht.table] at hw
  rcases Table.waits_step ht.move hw with hw | ⟨hj, hs, ha, hwork⟩
  · exact .inl hw
  · refine .inr ⟨hj, ht.ids ▸ hs, ht.effects _ ha, ?_⟩
    rcases hwork with rfl | rfl
    · obtain ⟨accepts, ho⟩ := ht.act (.look user) rfl
      exact ⟨accepts, .inl ho⟩
    · obtain ⟨accepts, ho⟩ := ht.act (.timeUp user) rfl
      exact ⟨accepts, .inr ho⟩

theorem pairs_of_step (h : x.WellFormed) {session : UInt32} {user data : Nat}
    (hp : ((x.step o).1.tables i).Pairs session user data) :
    (x.tables i).Pairs session user data ∨ Binds x o i session user data := by
  obtain ⟨w, e, r, ht⟩ := move_table h o i
  rw [ht.table] at hp
  rcases Table.pairs_step ht.move hp with hp | ⟨hj, hw, rfl⟩
  · exact .inl hp
  · exact .inr ⟨hj, hw, ht.act (.look data) rfl⟩

theorem unpaired_of_step (h : x.WellFormed) {key : Nat} (hu : (x.step o).1.Unpaired key) :
    x.Unpaired key := by
  rcases hu with hk | ⟨i, hj | ⟨session, hw⟩⟩
  · exact .inl (Nat.le_trans (nextKey_le_step x o) hk)
  · rcases judges_of_step h hj with hj | ⟨rfl, -⟩
    · exact .inr ⟨i, .inl hj⟩
    · exact .inl (Nat.le_refl _)
  · rcases waits_of_step h hw with hw | hreg
    · exact .inr ⟨i, .inr ⟨session, hw⟩⟩
    · exact .inr ⟨i, .inl hreg.judged⟩

/-! ## Forwards -/

theorem gone_step (h : x.WellFormed) {key : Nat} (hg : x.Gone key) : (x.step o).1.Gone key := by
  refine ⟨Nat.lt_of_lt_of_le hg.1 (nextKey_le_step x o), ?_⟩
  intro i hk
  rcases keys_of_step h hk with hk | ⟨rfl, -⟩
  · exact hg.2 i hk
  · exact Nat.lt_irrefl _ hg.1

/-- The pair of a connection that is paired is the one that it was in before. -/
theorem pairs_of_mem_keys (h : x.WellFormed) {j : ι} {session : UInt32} {user data key : Nat}
    (hp : (x.tables i).Pairs session user data) (hk : key = user ∨ key = data)
    (hmem : key ∈ ((x.step o).1.tables j).keys) :
    ((x.step o).1.tables i).Pairs session user data := by
  have hkey : key ∈ (x.tables i).keys := hp.mem_keys hk
  -- it is at the table of its pair and nowhere else
  have hji : j = i := by
    rcases keys_of_step h hmem with hmem | ⟨rfl, -⟩
    · exact h.apart j i key hmem hkey
    · exact absurd (h.known i _ hkey) (Nat.lt_irrefl _)
  subst hji
  have hnot : ¬ ((x.tables j).Judges key ∨ ∃ s, (x.tables j).Waits key s) := by
    intro hjw
    obtain ⟨hu, hd⟩ := (h.tables j).ne_of_pairs hp hjw
    exact hk.elim hu hd
  -- where it is now, read backwards
  rcases Table.mem_keys.mp hmem with hj | ⟨s, hw⟩ | ⟨s, u, d, hp', hk'⟩
  · rcases judges_of_step h hj with hj | ⟨rfl, -⟩
    · exact absurd (.inl hj) hnot
    · exact absurd (h.known j _ hkey) (Nat.lt_irrefl _)
  · rcases waits_of_step h hw with hw | hreg
    · exact absurd (.inr ⟨s, hw⟩) hnot
    · exact absurd (.inl hreg.judged) hnot
  · rcases pairs_of_step h hp' with hq | hbind
    · -- the pair before is the one pair of the connection
      obtain ⟨p, hpm, rfl, rfl, rfl⟩ := hp
      obtain ⟨q, hqm, rfl, rfl, rfl⟩ := hq
      have : p = q := (h.tables j).pair_unique hpm hqm (k := key)
        (by simpa [Table.pairKeys] using hk) (by simpa [Table.pairKeys] using hk')
      rw [this]
      exact hp'
    · rcases hk' with rfl | rfl
      · exact absurd (.inr ⟨s, hbind.waits⟩) hnot
      · exact absurd (.inl hbind.presents.judges) hnot

/-- A pair stays a pair, or both of its connections are gone. -/
theorem pairs_step (h : x.WellFormed) {session : UInt32} {user data : Nat}
    (hp : (x.tables i).Pairs session user data) :
    ((x.step o).1.tables i).Pairs session user data ∨
      ((x.step o).1.Gone user ∧ (x.step o).1.Gone data) := by
  have hlt : ∀ key, key ∈ (x.tables i).keys → key < (x.step o).1.nextKey := fun key hk =>
    Nat.lt_of_lt_of_le (h.known i key hk) (nextKey_le_step x o)
  by_cases hmem : ∃ j key, (key = user ∨ key = data) ∧ key ∈ ((x.step o).1.tables j).keys
  · obtain ⟨j, key, hk, hmem⟩ := hmem
    exact .inl (pairs_of_mem_keys h hp hk hmem)
  · right
    have hgone : ∀ key, key = user ∨ key = data → (x.step o).1.Gone key := by
      intro key hk
      exact ⟨hlt key (hp.mem_keys hk), fun j hj => hmem ⟨j, key, hk, hj⟩⟩
    exact ⟨hgone user (.inl rfl), hgone data (.inr rfl)⟩

/-! ## In a run -/

/-- A run of an exchange from its start. -/
abbrev Run (delays : ι → Nat) (first : UInt32) := Course step (start delays first)

namespace Run

variable {delays : ι → Nat} {first : UInt32} (r : Run delays first)

/-- A table at a moment. -/
abbrev table (i : ι) (n : Nat) : Table := (r.state n).tables i

theorem wellFormed (n : Nat) : (r.state n).WellFormed :=
  r.always (wellFormed_start delays first) (fun _ o h => wellFormed_step h o) n

variable {r}

theorem table_succ (j : ι) (n : Nat) :
    r.table j (n + 1) = ((r.state n).step (r.happens n)).1.tables j := rfl

theorem table_succ_of_act {n : Nat} {accepts : Bool} {task : Task}
    (h : r.happens n = .act i accepts task) :
    r.table i (n + 1) = ((r.state n).turn i accepts task).table := by
  rw [table_succ, h]
  simp only [step, tables_change, if_true]

theorem table_succ_of_ne {j : ι} {n : Nat} {accepts : Bool} {task : Task}
    (h : r.happens n = .act i accepts task) (hj : j ≠ i) : r.table j (n + 1) = r.table j n := by
  rw [table_succ, h]
  simp only [step, tables_change, if_neg hj]

theorem effectsAt_of_act {n : Nat} {accepts : Bool} {task : Task}
    (h : r.happens n = .act i accepts task) :
    r.effectsAt n = ((r.state n).turn i accepts task).effects := by
  rw [Course.effectsAt, h]
  rfl

theorem gone {key m n : Nat} (hmn : m ≤ n) (hg : (r.state m).Gone key) :
    (r.state n).Gone key := by
  induction hmn with
  | refl => exact hg
  | step _ ih => exact gone_step (r.wellFormed _) ih

theorem paired_or_gone {session : UInt32} {user data m n : Nat} (hmn : m ≤ n)
    (hp : (r.table i m).Pairs session user data) :
    (r.table i n).Pairs session user data ∨
      ((r.state n).Gone user ∧ (r.state n).Gone data) := by
  induction hmn with
  | refl => exact .inl hp
  | step _ ih =>
    rcases ih with hp | ⟨hu, hd⟩
    · exact pairs_step (r.wellFormed _) hp
    · exact .inr ⟨gone_step (r.wellFormed _) hu, gone_step (r.wellFormed _) hd⟩

theorem unpaired {key m n : Nat} (hmn : m ≤ n) (hu : (r.state n).Unpaired key) :
    (r.state m).Unpaired key := by
  induction hmn with
  | refl => exact hu
  | step _ ih => exact ih (unpaired_of_step (r.wellFormed _) hu)

theorem paired_or_unpaired {session : UInt32} {user data m n : Nat} (hmn : m ≤ n)
    (hp : (r.table i n).Pairs session user data) :
    (r.table i m).Pairs session user data ∨
      ((r.state m).Unpaired user ∧ (r.state m).Unpaired data) := by
  induction hmn with
  | refl => exact .inl hp
  | step hle ih =>
    rcases pairs_of_step (r.wellFormed _) hp with hp | hbind
    · exact ih hp
    · exact .inr ⟨unpaired hle (.inr ⟨i, .inr ⟨session, hbind.waits⟩⟩),
        unpaired hle (.inr ⟨i, .inl hbind.presents.judges⟩)⟩

end Run

end Exchange

end ReverseTunnel.Proxy

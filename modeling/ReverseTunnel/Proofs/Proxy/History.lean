import ReverseTunnel.Proofs.Proxy.Faithful
import ReverseTunnel.Proofs.Proxy.Lives

/-!
What happens to the connections of an exchange.

The trail of a connection is what its far end has done, and what a connection has
received and whether it was told of an end is in the effects of the run. At every
moment the tables are faithful to these (`faithful`): nothing has gone out to a
connection that is not paired, and the bytes of a pair are on its lanes. What the
steps of one relay add to a metric is told apart from what others add.
-/

namespace ReverseTunnel

/-- What several changes add to a metric. -/
def Metrics.added (m : Metric) : List Count → Int
  | [] => 0
  | c :: cs => (if m = c.metric then c.amount else 0) + added m cs

theorem Metrics.total_addAll (ms : Metrics) (cs : List Count) (m : Metric) :
    (ms.addAll cs).total m = ms.total m + added m cs := by
  induction cs generalizing ms with
  | nil => exact (Int.add_zero _).symm
  | cons c cs ih =>
    show ((ms.add c).addAll cs).total m = _
    rw [ih, total_add, added, Int.add_assoc]

theorem Metrics.added_append (m : Metric) (cs ds : List Count) :
    added m (cs ++ ds) = added m cs + added m ds := by
  induction cs with
  | nil => exact (Int.zero_add _).symm
  | cons c cs ih =>
    rw [List.cons_append, added, added, ih]
    omega

namespace Proxy

open Session

/-- What an effect counts. -/
def TableEffect.count? : TableEffect → Option Count
  | .count c => some c
  | .relay _ => none
  | .drop _ => none
  | .announce _ => none

/-- How much effects add to a metric. -/
def amount (m : Metric) (es : List TableEffect) : Int :=
  Metrics.added m (es.filterMap TableEffect.count?)

theorem amount_relay (m : Metric) (es : List RelayEffect) : amount m (es.map .relay) = 0 := by
  have : (es.map TableEffect.relay).filterMap TableEffect.count? = [] := by
    rw [List.filterMap_map, List.filterMap_eq_nil_iff]
    intro e _
    rfl
  rw [amount, this, Metrics.added]

namespace Exchange.Run

variable {ι : Type} [DecidableEq ι] {delays : ι → Nat} {first : UInt32}

/-! ## What has happened -/

/-- What the far end of a connection has done before a moment. -/
def trail (r : Run delays first) (key : Nat) : Nat → Trail
  | 0 => {}
  | n + 1 =>
    match r.happens n with
    | .receive k a =>
      if k = key ∧ key < (r.state n).nextKey then (r.trail key n).receive a else r.trail key n
    | _ => r.trail key n

/-- What a connection has received before a moment. -/
def received (r : Run delays first) (key n : Nat) : Bytes := outgoing (r.effects n) key

/-- A connection was told of an end before a moment. -/
def Told (r : Run delays first) (key n : Nat) : Prop := tells (r.effects n) key

variable {r : Run delays first} {i : ι}

theorem received_succ (key n : Nat) :
    r.received key (n + 1) = r.received key n ++ outgoing (r.effectsAt n) key := by
  simp [received, outgoing, Course.effects]

theorem told_succ (key n : Nat) :
    r.Told key (n + 1) ↔ r.Told key n ∨ tells (r.effectsAt n) key := by
  simp [Told, tells, Course.effects]

theorem trail_succ_of_quiet {n : Nat} (h : ∀ k a, r.happens n ≠ .receive k a) (key : Nat) :
    r.trail key (n + 1) = r.trail key n := by
  cases ho : r.happens n with
  | receive k a => exact absurd ho (h k a)
  | comeIn | act | advance => simp only [trail, ho]

theorem trail_succ_of_receive {n k : Nat} {a : Arrival} (h : r.happens n = .receive k a)
    {key : Nat} (hkey : key < (r.state n).nextKey) :
    r.trail key (n + 1) = Table.after (r.trail · n) k a key := by
  simp only [trail, h, hkey, and_true, Table.after]

theorem unborn {key : Nat} (n : Nat) (hkey : (r.state n).nextKey ≤ key) :
    r.trail key n = {} := by
  induction n with
  | zero => rfl
  | succ n ih =>
    have hle : (r.state n).nextKey ≤ key := Nat.le_trans (nextKey_le_step _ _) hkey
    cases ho : r.happens n with
    | receive k a => simp only [trail, ho, Nat.not_lt.mpr hle, and_false, if_false, ih hle]
    | comeIn | act | advance => simp only [trail, ho, ih hle]

theorem silent_at {key n : Nat} (hkey : ∀ i, key ∉ (r.table i n).paired.flatMap Table.pairKeys) :
    outgoing (r.effectsAt n) key = [] ∧ ¬ tells (r.effectsAt n) key := by
  rw [Course.effectsAt]
  cases ho : r.happens n with
  | act i accepts task =>
    exact Table.silent_of_move (move_turn (r.wellFormed n) i accepts task)
      fun p hp _ _ hk => hkey i (List.mem_flatMap.mpr ⟨p, hp, hk⟩)
  | comeIn | receive | advance => exact silent_of_no_relay (by simp [step]) key

/-- Who has received something was paired before. -/
theorem pairs_of_received {key n : Nat} (h : r.received key n ≠ []) :
    ∃ m, m < n ∧ ∃ i session user data, (r.table i m).Pairs session user data ∧
      (key = user ∨ key = data) := by
  induction n with
  | zero => exact absurd rfl h
  | succ n ih =>
    by_cases hbefore : r.received key n = []
    · have hnow : outgoing (r.effectsAt n) key ≠ [] := by
        rwa [received_succ, hbefore, List.nil_append] at h
      have hpaired : ∃ i, key ∈ (r.table i n).paired.flatMap Table.pairKeys := by
        by_contra hnone
        exact hnow (silent_at fun i hi => hnone ⟨i, hi⟩).1
      obtain ⟨i, hi⟩ := hpaired
      obtain ⟨p, hp, hkey⟩ := List.mem_flatMap.mp hi
      exact ⟨n, Nat.lt_succ_self n, i, _, _, _, ⟨p, hp, rfl, rfl, rfl⟩, by simpa [Table.pairKeys] using hkey⟩
    · obtain ⟨m, hmn, hpairs⟩ := ih hbefore
      exact ⟨m, Nat.lt_succ_of_lt hmn, hpairs⟩

theorem silent_of_unborn {key : Nat} (n : Nat) (hkey : (r.state n).nextKey ≤ key) :
    r.received key n = [] ∧ ¬ r.Told key n := by
  induction n with
  | zero => exact ⟨rfl, by simp [Told, tells, Course.effects]⟩
  | succ n ih =>
    have hle : (r.state n).nextKey ≤ key := Nat.le_trans (nextKey_le_step _ _) hkey
    obtain ⟨hrec, htold⟩ := ih hle
    have hnowhere : ∀ i, key ∉ (r.table i n).paired.flatMap Table.pairKeys := fun i hk =>
      absurd ((r.wellFormed n).known i key (List.mem_append_right _ hk)) (Nat.not_lt.mpr hle)
    obtain ⟨hout, htell⟩ := silent_at hnowhere
    rw [received_succ, told_succ]
    simp [hrec, htold, hout, htell]

/-! ## Faithful tables at every moment -/

theorem faithful_step {n : Nat}
    (h : (r.table i n).Faithful (r.trail · n) (r.received · n) (r.Told · n)) :
    (r.table i (n + 1)).Faithful (r.trail · (n + 1)) (r.received · (n + 1))
      (r.Told · (n + 1)) := by
  have hwf := r.wellFormed n
  show ((Exchange.step (r.state n) (r.happens n)).1.tables i).Faithful _ _ _
  simp only [received_succ, told_succ, Course.effectsAt]
  cases ho : r.happens n with
  | comeIn j =>
    have htr := trail_succ_of_quiet (r := r) (n := n) (by simp [ho])
    obtain ⟨hout, htold⟩ := silent_of_unborn (r := r) n (Nat.le_refl _)
    simp only [htr, step, tables_change]
    refine Table.Faithful.mute ?_ (by simp)
    split
    · rename_i hij
      subst hij
      -- what comes in has a number that was never used
      exact h.accept _ _ (unborn n (Nat.le_refl _)) hout htold
    · exact h
  | receive k a =>
    simp only [step]
    refine Table.Faithful.mute ?_ (by simp)
    refine (h.receive k a).congr fun key hkey => ⟨?_, rfl, Iff.rfl⟩
    rw [Table.keys_receive] at hkey
    exact trail_succ_of_receive ho (hwf.known i key hkey)
  | act j accepts task =>
    have htr := trail_succ_of_quiet (r := r) (n := n) (by simp [ho])
    have hm := move_turn hwf j accepts task
    simp only [htr, step, tables_change]
    split
    · rename_i hij
      subst hij
      exact h.move (hwf.tables i) hm (event_ne_accept task) (event_ne_receive task)
    · rename_i hij
      -- another table moves, whose connections are not ours
      apply h.congr
      intro key hkey
      have hother : ∀ p ∈ (r.table j n).paired, key ∉ Table.pairKeys p := fun p hp hk =>
        hij (hwf.apart i j key hkey (Table.mem_keys_of_paired hp hk))
      obtain ⟨hout, htell⟩ := Table.silent_of_move hm fun p hp _ _ => hother p hp
      simp [hout, htell]
  | advance ms =>
    have htr := trail_succ_of_quiet (r := r) (n := n) (by simp [ho])
    simp only [htr, step]
    exact h.mute (by simp)

/-- The tables are faithful at every moment. -/
theorem faithful (i : ι) (n : Nat) :
    (r.table i n).Faithful (r.trail · n) (r.received · n) (r.Told · n) := by
  induction n with
  | zero =>
    refine ⟨?_, ?_, fun k hk => ⟨rfl, by simp [Told, tells, Course.effects]⟩, ?_⟩ <;>
      simp [table, Course.state, start]
  | succ n ih => exact faithful_step ih

/-! ## What is counted -/

/-- What was counted before a moment. -/
def metrics (r : Run delays first) (n : Nat) : Metrics :=
  Metrics.addAll {} ((r.effects n).filterMap TableEffect.count?)

/-- How much a metric has grown by the steps of the relay of a data connection. -/
def grown (r : Run delays first) (m : Metric) (data : Nat) : Nat → Int
  | 0 => 0
  | n + 1 =>
    match r.happens n with
    | .act _ _ (.relay key _) =>
      if key = data then r.grown m data n + ((r.metrics (n + 1)).total m - (r.metrics n).total m)
      else r.grown m data n
    | _ => r.grown m data n

theorem total_succ (m : Metric) (n : Nat) :
    (r.metrics (n + 1)).total m = (r.metrics n).total m + amount m (r.effectsAt n) := by
  have happend : r.metrics (n + 1) =
      (r.metrics n).addAll ((r.effectsAt n).filterMap TableEffect.count?) := by
    simp [metrics, Metrics.addAll, Course.effects]
  rw [happend, Metrics.total_addAll, amount]

theorem grown_succ_of_relay {n data : Nat} {i : ι} {accepts : Bool} {e : RelayEvent}
    (h : r.happens n = .act i accepts (.relay data e)) (m : Metric) :
    r.grown m data (n + 1) = r.grown m data n + amount m (r.effectsAt n) := by
  have htotal := total_succ (r := r) m n
  simp only [grown, h, if_true]
  omega

theorem grown_succ_of_other {n data : Nat}
    (h : ∀ i accepts e, r.happens n ≠ .act i accepts (.relay data e)) (m : Metric) :
    r.grown m data (n + 1) = r.grown m data n := by
  cases ho : r.happens n with
  | act i accepts task =>
    cases task with
    | relay key e =>
      have hkey : key ≠ data := fun hk => h i accepts e (hk ▸ ho)
      simp only [grown, ho, if_neg hkey]
    | look | timeUp | evict | clear => simp only [grown, ho]
  | comeIn | receive | advance => simp only [grown, ho]

end Exchange.Run

end Proxy

end ReverseTunnel

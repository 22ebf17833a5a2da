import ReverseTunnel.Proofs.Proxy.Accounts

/-!
Every user is accounted for.

What is proved (`sessions_are_accounted_for`): along a run of an exchange each of its tables keeps
its account. It balances at every moment (`balanced`), and nobody is counted twice, for whoever
was counted is judged no longer and never again (`noted`). So every user that was counted waits or
has met one fate, and a fate that was met stays met. Where there is no other table, the metrics
read what its account says.

What is assumed: while any one user waits, fewer ids are drawn than there are
(`Exchange.Run.Unhurried`). Otherwise one user may displace another, whom nothing counts.

What is not said: that a user who waits meets a fate. Whether it is swept is a matter of the proxy
(`Proofs.Server.Sweeping`).
-/

namespace ReverseTunnel.Proxy

open scoped List
open Session

namespace Account

variable {a : Account} {w : Surroundings} {t : Table} {e : TableEvent} {r : TableStep}

theorem reading_enter (m : Metric) :
    (a.enter w t e r).reading m = a.reading m + amount m r.effects :=
  amount_append m _ _

theorem met_enter (f : Fate) :
    (a.enter w t e r).met f = a.met f ++ (endedBy w t e r).filter (·.2 = f) :=
  List.filter_append _ _

theorem Balanced.enter (h : a.Balanced t.users) (he : Entered w t e r) :
    (a.enter w t e r).Balanced r.table.users where
  users := by
    calc a.counted ++ countedBy e r.effects
      _ ~ t.users ++ a.ended.map (·.1) ++ countedBy e r.effects := h.users.append_right _
      _ ~ t.users ++ countedBy e r.effects ++ a.ended.map (·.1) := by
        rw [List.append_assoc, List.append_assoc]
        exact List.perm_append_comm.append_left _
      _ ~ r.table.users ++ (endedBy w t e r).map (·.1) ++ a.ended.map (·.1) :=
        he.users.append_right _
      _ ~ r.table.users ++ (a.ended ++ endedBy w t e r).map (·.1) := by
        rw [List.append_assoc, List.map_append]
        exact List.perm_append_comm.append_left _
  counted := by
    rw [reading_enter, h.counted, he.counted, Account.enter, List.length_append, Int.natCast_add]
  paired := by
    rw [reading_enter, met_enter, h.paired, he.paired, List.length_append, Int.natCast_add]
  evicted := by
    rw [reading_enter, met_enter, h.evicted, he.evicted, List.length_append, Int.natCast_add]
  data := by
    rw [reading_enter, reading_enter, reading_enter, h.data, he.data]
    omega

end Account

namespace Exchange.Run

variable {ι : Type} [DecidableEq ι] {delays : ι → Nat} {first : UInt32}

/-- The account of a table at a moment. -/
def account (r : Run delays first) (i : ι) : Nat → Account
  | 0 => {}
  | n + 1 =>
    match r.happens n with
    | .act j accepts task =>
      if j = i then
        (r.account i n).enter ((r.state n).around accepts) (r.table i n) task.event
          ((r.state n).turn i accepts task)
      else r.account i n
    | _ => r.account i n

variable {r : Run delays first} {i : ι} {n : Nat}

theorem account_of_act {accepts : Bool} {task : Task} (ho : r.happens n = .act i accepts task) :
    r.account i (n + 1) = (r.account i n).enter ((r.state n).around accepts) (r.table i n) task.event
      ((r.state n).turn i accepts task) := by
  simp only [account, ho, if_true]

theorem account_of_other (ho : ∀ accepts task, r.happens n ≠ .act i accepts task) :
    r.account i (n + 1) = r.account i n ∧ (r.table i (n + 1)).users = (r.table i n).users := by
  cases hn : r.happens n with
  | act j accepts task =>
    have hij : j ≠ i := fun h => ho accepts task (h ▸ hn)
    refine ⟨by simp only [account, hn, if_neg hij], ?_⟩
    rw [table_succ_of_ne hn hij.symm]
  | comeIn j =>
    refine ⟨by simp only [account, hn], ?_⟩
    rw [table_succ, hn]
    simp only [step, tables_change]
    split
    · rename_i hij
      rw [hij]
      rfl
    · rfl
  | receive key a =>
    refine ⟨by simp only [account, hn], ?_⟩
    rw [table_succ, hn]
    exact Table.users_receive _ _ _
  | advance ms =>
    refine ⟨by simp only [account, hn], ?_⟩
    rw [table_succ, hn]
    rfl

theorem entered_of_act (calm : r.Unhurried) {accepts : Bool} {task : Task}
    (ho : r.happens n = .act i accepts task) :
    Entered ((r.state n).around accepts) (r.table i n) task.event ((r.state n).turn i accepts task) := by
  have hwf := r.wellFormed n
  apply Table.entered_of_move (hwf.tables i) (move_turn hwf i accepts task)
  intro session ha v hv
  obtain ⟨hdraw, -⟩ := draw_of_announce (r := r) (n := n) (effectsAt_of_act ho ▸ ha)
  show v.session ≠ (r.state n).ids.next
  rw [ids_eq n]
  exact ne_next_of_waits calm hdraw ⟨v, hv, rfl, rfl⟩

theorem balanced (calm : r.Unhurried) (i : ι) (n : Nat) :
    (r.account i n).Balanced (r.table i n).users := by
  induction n with
  | zero => exact ⟨.refl _, rfl, rfl, rfl, rfl⟩
  | succ n ih =>
    by_cases ho : ∃ accepts task, r.happens n = .act i accepts task
    · obtain ⟨accepts, task, ho⟩ := ho
      rw [account_of_act ho, table_succ_of_act ho]
      exact ih.enter (entered_of_act calm ho)
    · obtain ⟨haccount, husers⟩ := account_of_other fun accepts task h => ho ⟨accepts, task, h⟩
      rw [haccount, husers]
      exact ih

/-- Whoever was counted is judged no longer, and was counted once. -/
structure Noted (r : Run delays first) (i : ι) (n : Nat) : Prop where
  once : (r.account i n).counted.Nodup
  judged : ∀ user ∈ (r.account i n).counted,
    user < (r.state n).nextKey ∧ ¬ (r.table i n).Judges user

/-- A connection that came in and is judged no longer is never judged again. -/
theorem not_judges_succ {user : Nat} (hold : user < (r.state n).nextKey)
    (hnot : ¬ (r.table i n).Judges user) :
    user < (r.state (n + 1)).nextKey ∧ ¬ (r.table i (n + 1)).Judges user := by
  refine ⟨Nat.lt_of_lt_of_le hold (nextKey_le_step _ _), fun hj => ?_⟩
  rcases judges_of_step (r.wellFormed n) hj with hj | ⟨rfl, -⟩
  · exact hnot hj
  · exact Nat.lt_irrefl _ hold

theorem noted (i : ι) (n : Nat) : r.Noted i n := by
  induction n with
  | zero => exact ⟨List.nodup_nil, nofun⟩
  | succ n ih =>
    have hold : ∀ user ∈ (r.account i n).counted,
        user < (r.state (n + 1)).nextKey ∧ ¬ (r.table i (n + 1)).Judges user := fun user hu =>
      not_judges_succ (ih.judged user hu).1 (ih.judged user hu).2
    by_cases ho : ∃ accepts task, r.happens n = .act i accepts task
    · obtain ⟨accepts, task, ho⟩ := ho
      have hwf := r.wellFormed n
      -- who is counted now was judged until now
      have hnew : ∀ user ∈ countedBy task.event ((r.state n).turn i accepts task).effects,
          (r.table i n).Judges user ∧ ¬ (r.table i (n + 1)).Judges user := fun user hu => by
        rw [table_succ_of_act ho]
        exact Table.judges_of_counted (hwf.tables i) (move_turn hwf i accepts task) hu
      have haccount := account_of_act ho
      constructor
      · rw [haccount]
        refine List.nodup_append.mpr ⟨ih.once, Table.nodup_countedBy _ _, fun user hu user' hu' heq => ?_⟩
        exact (ih.judged user hu).2 (heq ▸ (hnew user' hu').1)
      · intro user hu
        rw [haccount] at hu
        rcases List.mem_append.mp hu with hu | hu
        · exact hold user hu
        · obtain ⟨hj, hnot⟩ := hnew user hu
          have hkey := hwf.known i user hj.mem_keys
          exact ⟨Nat.lt_of_lt_of_le hkey (nextKey_le_step _ _), hnot⟩
    · obtain ⟨haccount, -⟩ := account_of_other fun accepts task h => ho ⟨accepts, task, h⟩
      exact ⟨haccount ▸ ih.once, haccount ▸ hold⟩

/-! ## Classes -/

theorem account_le {m : Nat} (hnm : n ≤ m) :
    (r.account i n).counted <+: (r.account i m).counted ∧
      (r.account i n).ended <+: (r.account i m).ended := by
  induction hnm with
  | refl => exact ⟨List.prefix_refl _, List.prefix_refl _⟩
  | step hle ih =>
    rename_i m
    have hstep : (r.account i m).counted <+: (r.account i (m + 1)).counted ∧
        (r.account i m).ended <+: (r.account i (m + 1)).ended := by
      by_cases ho : ∃ accepts task, r.happens m = .act i accepts task
      · obtain ⟨accepts, task, ho⟩ := ho
        rw [account_of_act ho]
        exact ⟨List.prefix_append _ _, List.prefix_append _ _⟩
      · obtain ⟨haccount, -⟩ := account_of_other fun accepts task h => ho ⟨accepts, task, h⟩
        rw [haccount]
        exact ⟨List.prefix_refl _, List.prefix_refl _⟩
    exact ⟨ih.1.trans hstep.1, ih.2.trans hstep.2⟩

theorem nodup_classes (calm : r.Unhurried) (i : ι) (n : Nat) :
    ((r.table i n).users ++ (r.account i n).ended.map (·.1)).Nodup :=
  (balanced calm i n).users.nodup_iff.mp (noted i n).once

/-- Whoever has met a fate does not wait, and has met no other. -/
theorem settled (calm : r.Unhurried) {user : Nat} {fate : Fate}
    (hmet : (user, fate) ∈ (r.account i n).ended) :
    user ∉ (r.table i n).users ∧ ∀ other, (user, other) ∈ (r.account i n).ended → other = fate := by
  have hclasses := nodup_classes calm i n
  rw [List.nodup_append] at hclasses
  obtain ⟨-, hended, hapart⟩ := hclasses
  refine ⟨fun hwaits => hapart user hwaits user (List.mem_map.mpr ⟨_, hmet, rfl⟩) rfl, ?_⟩
  intro other hother
  exact congrArg Prod.snd (List.inj_on_of_nodup_map hended hother hmet rfl)

/-- Where there is one table, it has counted all that was counted. -/
theorem reading_of_alone (halone : ∀ j, j = i) (m : Metric) (n : Nat) :
    (r.account i n).reading m = (r.metrics n).total m := by
  induction n with
  | zero => rfl
  | succ n ih =>
    rw [total_succ, ← ih]
    by_cases ho : ∃ accepts task, r.happens n = .act i accepts task
    · obtain ⟨accepts, task, ho⟩ := ho
      rw [account_of_act ho, Account.reading_enter, effectsAt_of_act ho]
    · obtain ⟨haccount, -⟩ := account_of_other fun accepts task h => ho ⟨accepts, task, h⟩
      have hnothing : r.effectsAt n = [] := by
        rw [Course.effectsAt]
        cases hn : r.happens n with
        | act j accepts task => exact absurd ⟨accepts, task, halone j ▸ hn⟩ ho
        | comeIn | receive | advance => rfl
      rw [haccount, hnothing]
      exact (Int.add_zero _).symm

/-- The sessions of a table are accounted for at every moment. The users counted are
those who wait, were paired, were evicted, were cleared or were refused, and the data
connections counted are those that were paired and the stale ones. Nobody is counted
twice; whoever is counted waits or has met one fate, and nobody else; and whoever has
met a fate has met this one for ever and never waits again. Of a table that is alone
these numbers are the readings of the metrics. -/
theorem sessions_are_accounted_for (r : Run delays first) (calm : r.Unhurried) (i : ι) (n : Nat) :
    ((r.account i n).reading .userConnections =
        (r.table i n).waiting.length + (r.account i n).reading .sessionsPaired +
          (r.account i n).reading .unboundEvictions + ((r.account i n).met .cleared).length +
          ((r.account i n).met .refused).length ∧
      (r.account i n).reading .dataConnections =
        (r.account i n).reading .sessionsPaired + (r.account i n).reading .staleDataConnections) ∧
    ((r.account i n).reading .userConnections = (r.account i n).counted.length ∧
      (r.account i n).reading .sessionsPaired = ((r.account i n).met .paired).length ∧
      (r.account i n).reading .unboundEvictions = ((r.account i n).met .evicted).length) ∧
    ((r.account i n).counted.Nodup ∧
      ∀ user, user ∈ (r.account i n).counted ↔
        user ∈ (r.table i n).users ∨ ∃ fate, (user, fate) ∈ (r.account i n).ended) ∧
    (∀ user fate, (user, fate) ∈ (r.account i n).ended → ∀ m, n ≤ m →
      (user, fate) ∈ (r.account i m).ended ∧ user ∉ (r.table i m).users ∧
        ∀ other, (user, other) ∈ (r.account i m).ended → other = fate) ∧
    ((∀ j, j = i) → ∀ m, (r.account i n).reading m = (r.metrics n).total m) := by
  have hbalanced := balanced calm i n
  have hsum := hbalanced.sum
  rw [Table.users, List.length_map] at hsum
  refine ⟨⟨hsum, hbalanced.data⟩, ⟨hbalanced.counted, hbalanced.paired, hbalanced.evicted⟩,
    ⟨(noted i n).once, fun user => ?_⟩, fun user fate hmet m hnm => ?_,
    fun halone m => reading_of_alone halone m n⟩
  · rw [hbalanced.users.mem_iff, List.mem_append, List.mem_map]
    simp
  · have hlater := (account_le hnm).2.subset hmet
    exact ⟨hlater, settled calm hlater⟩

/-- A user is paired, one is refused, one is evicted and one is cleared, and the last one
waits; and a data connection comes too late. -/
def fiveUsers : Run (fun _ : Unit => 1000) 1 :=
  .of [.comeIn (), .receive 1 (.bytes [71]), .act () true (.look 1), .comeIn (),
    .receive 2 (.bytes [71]), .act () false (.look 2), .comeIn (), .receive 3 (.bytes [71]),
    .act () true (.look 3), .comeIn (), .receive 4 (.bytes (Handshake.encode 1)),
    .act () true (.look 4), .comeIn (), .receive 5 (.bytes (Handshake.encode 1)),
    .act () true (.look 5), .advance 10, .act () true (.evict 10), .comeIn (),
    .receive 6 (.bytes [71]), .act () true (.look 6), .act () true .clear, .comeIn (),
    .advance 1000, .act () true (.timeUp 7)] (.advance 0)

theorem unhurried_fiveUsers : fiveUsers.Unhurried := by
  apply unhurried_of_drawn_lt
  intro n
  have hfive : fiveUsers.drawn 24 < maxId := by decide
  rcases Nat.le_total n 24 with hn | hn
  · exact Nat.lt_of_le_of_lt (drawn_le hn) hfive
  · have hstill : fiveUsers.effects n = fiveUsers.effects 24 :=
      (Course.still_of_le (c := fiveUsers) rfl (fun _ => rfl) hn).2
    rw [drawn, issued, hstill]
    exact hfive

theorem sessions_are_accounted_for_fiveUsers :
    fiveUsers.Unhurried ∧ (fiveUsers.account () 24).ended =
        [(2, .refused), (1, .paired), (3, .evicted), (6, .cleared)] ∧
      (fiveUsers.table () 24).users = [7] ∧
      (fiveUsers.metrics 24).total .userConnections = 5 ∧
      (fiveUsers.metrics 24).total .dataConnections = 2 := by
  have calm := unhurried_fiveUsers
  obtain ⟨⟨husers, hdata⟩, ⟨hcounted, hpaired, hevicted⟩, -, -, halone⟩ :=
    sessions_are_accounted_for fiveUsers calm () 24
  have hended : (fiveUsers.account () 24).ended =
      [(2, .refused), (1, .paired), (3, .evicted), (6, .cleared)] := by decide
  have hcountedFive : (fiveUsers.account () 24).counted = [1, 2, 3, 6, 7] := by decide
  have hstale : (fiveUsers.account () 24).reading .staleDataConnections = 1 := by decide
  refine ⟨calm, hended, by decide, ?_, ?_⟩
  · rw [← halone (fun _ => rfl), hcounted, hcountedFive]
    rfl
  · rw [← halone (fun _ => rfl), hdata, hpaired, hstale, Account.met, hended]
    rfl

end Exchange.Run

end ReverseTunnel.Proxy

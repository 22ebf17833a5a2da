import ReverseTunnel.Proofs.Proxy.History
import ReverseTunnel.Proofs.Proxy.Issuing

/-!
The account of a session table.

A table counts every user that it registers, and says so to the metrics. The account
of a table names these users, and with each one whose wait is over how it ended
(`Fate`): it was paired, evicted, cleared, or it never waited because its announcement
was refused. An account balances (`Account.Balanced`): the users counted are those who
wait and those whose wait is over, and each metric reads how many users met the fate
that it counts. Every move of a table keeps that (`Table.enter`), as long as nobody is
displaced by a user that gets the same id.
-/

namespace ReverseTunnel.Proxy

open Session

theorem amount_append (m : Metric) (es fs : List TableEffect) :
    amount m (es ++ fs) = amount m es + amount m fs := by
  rw [amount, List.filterMap_append, Metrics.added_append]
  rfl

theorem amount_drops (m : Metric) (keys : List Nat) : amount m (keys.map .drop) = 0 := by
  have : (keys.map TableEffect.drop).filterMap TableEffect.count? = [] := by
    rw [List.filterMap_map, List.filterMap_eq_nil_iff]
    exact fun _ _ => rfl
  rw [amount, this, Metrics.added]

/-! ## Accounts -/

/-- How the wait of a user ends. -/
inductive Fate where
  | paired
  /-- It had waited too long. -/
  | evicted
  /-- The table was cleared. -/
  | cleared
  /-- The announcement of its session was refused, so that it never waited. -/
  | refused
  deriving DecidableEq, Repr

/-- The connection that an effect drops. -/
def TableEffect.dropped? : TableEffect → Option Nat
  | .drop key => some key
  | .relay _ => none
  | .announce _ => none
  | .count _ => none

/-- The connections that effects drop. -/
def dropped (es : List TableEffect) : List Nat := es.filterMap TableEffect.dropped?

theorem dropped_drops (keys : List Nat) : dropped (keys.map .drop) = keys := by
  rw [dropped, List.filterMap_map]
  exact List.filterMap_some

theorem dropped_append (es fs : List TableEffect) : dropped (es ++ fs) = dropped es ++ dropped fs :=
  List.filterMap_append

namespace Table

/-- The users that wait. -/
def users (t : Table) : List Nat := t.waiting.map (·.party.key)

/-- The users that are paired. -/
def fronts (t : Table) : List Nat := t.paired.map (·.relay.front.key)

end Table

/-- The user that is counted with an event. -/
def countedBy (e : TableEvent) (es : List TableEffect) : List Nat :=
  match e with
  | .look key | .timeUp key => if .count ⟨.userConnections, 1⟩ ∈ es then [key] else []
  | .accept _ | .receive _ _ | .relay _ _ | .evict _ | .clear => []

/-- The users that the owner refuses, that are evicted and that are cleared with an event. -/
def lostBy (accepts : Bool) (e : TableEvent) (es : List TableEffect) : List (Nat × Fate) :=
  match e with
  | .look _ | .timeUp _ => if accepts then [] else (countedBy e es).map (·, .refused)
  | .evict _ => (dropped es).map (·, .evicted)
  | .clear => (dropped es).map (·, .cleared)
  | .accept _ | .receive _ _ | .relay _ _ => []

/-- The users that waited and are paired afterwards. -/
def pairedBy (t t' : Table) : List (Nat × Fate) :=
  (t.users.filter (· ∈ t'.fronts)).map (·, .paired)

/-- The users whose wait ends with a step. -/
def endedBy (w : Surroundings) (t : Table) (e : TableEvent) (r : TableStep) : List (Nat × Fate) :=
  lostBy w.ownerAccepts e r.effects ++ pairedBy t r.table

/-- What has become of the users of a table. -/
structure Account where
  /-- The users that were counted, in order. -/
  counted : List Nat := []
  /-- Those whose wait is over, in order, and how it ended. -/
  ended : List (Nat × Fate) := []
  /-- What the table has done. -/
  effects : List TableEffect := []

namespace Account

/-- The account after a step of the table. -/
def enter (a : Account) (w : Surroundings) (t : Table) (e : TableEvent) (r : TableStep) : Account where
  counted := a.counted ++ countedBy e r.effects
  ended := a.ended ++ endedBy w t e r
  effects := a.effects ++ r.effects

/-- The users that met a fate. -/
def met (a : Account) (f : Fate) : List (Nat × Fate) := a.ended.filter (·.2 = f)

/-- What the table has added to a metric. -/
def reading (a : Account) (m : Metric) : Int := amount m a.effects

/-- The users counted are those who wait and those whose wait is over, and the metrics
read how many there are. -/
structure Balanced (a : Account) (users : List Nat) : Prop where
  users : a.counted.Perm (users ++ a.ended.map (·.1))
  counted : a.reading .userConnections = a.counted.length
  paired : a.reading .sessionsPaired = (a.met .paired).length
  evicted : a.reading .unboundEvictions = (a.met .evicted).length
  data : a.reading .dataConnections = a.reading .sessionsPaired + a.reading .staleDataConnections

theorem length_met (es : List (Nat × Fate)) :
    es.length = (es.filter (·.2 = .paired)).length + (es.filter (·.2 = .evicted)).length +
      (es.filter (·.2 = .cleared)).length + (es.filter (·.2 = .refused)).length := by
  induction es with
  | nil => rfl
  | cons e es ih =>
    obtain ⟨user, fate⟩ := e
    cases fate <;> simp [ih] <;> omega

theorem Balanced.sum {a : Account} {users : List Nat} (h : a.Balanced users) :
    a.reading .userConnections = users.length + a.reading .sessionsPaired +
      a.reading .unboundEvictions + (a.met .cleared).length + (a.met .refused).length := by
  have hlength : a.counted.length = users.length + a.ended.length := by
    rw [h.users.length_eq, List.length_append, List.length_map]
  have hended : a.ended.length = _ := length_met a.ended
  rw [h.counted, h.paired, h.evicted]
  simp only [met]
  omega

end Account

/-! ## What a move enters -/

/-- What a step enters balances. -/
structure Entered (w : Surroundings) (t : Table) (e : TableEvent) (r : TableStep) : Prop where
  users : (t.users ++ countedBy e r.effects).Perm (r.table.users ++ (endedBy w t e r).map (·.1))
  counted : amount .userConnections r.effects = (countedBy e r.effects).length
  paired : amount .sessionsPaired r.effects = ((endedBy w t e r).filter (·.2 = .paired)).length
  evicted : amount .unboundEvictions r.effects = ((endedBy w t e r).filter (·.2 = .evicted)).length
  data : amount .dataConnections r.effects =
    amount .sessionsPaired r.effects + amount .staleDataConnections r.effects

/-- What a step enters balances if it does with the users that are counted and those whose
wait ends. -/
theorem Entered.of_eq {w : Surroundings} {t : Table} {e : TableEvent} {r : TableStep}
    {counted : List Nat} {ended : List (Nat × Fate)} (hcounted : countedBy e r.effects = counted)
    (hended : endedBy w t e r = ended)
    (husers : (t.users ++ counted).Perm (r.table.users ++ ended.map (·.1)))
    (hcount : amount .userConnections r.effects = counted.length)
    (hpaired : amount .sessionsPaired r.effects = (ended.filter (·.2 = .paired)).length)
    (hevicted : amount .unboundEvictions r.effects = (ended.filter (·.2 = .evicted)).length)
    (hdata : amount .dataConnections r.effects =
      amount .sessionsPaired r.effects + amount .staleDataConnections r.effects) :
    Entered w t e r := by
  subst hcounted hended
  exact ⟨husers, hcount, hpaired, hevicted, hdata⟩

namespace Table

variable {w : Surroundings} {t : Table} {e : TableEvent} {r : TableStep}

/-- A user that waits is not paired. -/
theorem WellFormed.not_front (h : t.WellFormed) {user : Nat} (hu : user ∈ t.users) :
    user ∉ t.fronts := by
  obtain ⟨v, hv, rfl⟩ := List.mem_map.mp hu
  intro hf
  obtain ⟨p, hp, hk⟩ := List.mem_map.mp hf
  obtain ⟨hne, -⟩ := h.ne_of_pairs ⟨p, hp, rfl, rfl, rfl⟩ (.inr ⟨v.session, v, hv, rfl, rfl⟩)
  exact hne hk.symm

theorem WellFormed.nodup_users (h : t.WellFormed) : t.users.Nodup := by
  have hn := h.keys
  rw [Table.keys, List.append_assoc, List.nodup_append, List.nodup_append] at hn
  exact hn.2.1.1

theorem pairedBy_of_fronts (h : t.WellFormed) {s : Table} (hf : s.fronts ⊆ t.fronts) :
    pairedBy t s = [] := by
  rw [pairedBy, List.map_eq_nil_iff, List.filter_eq_nil_iff]
  intro user hu
  simpa using fun hmem => h.not_front hu (hf hmem)

@[simp]
theorem users_receive (t : Table) (key : Nat) (a : Arrival) : (t.receive key a).users = t.users := by
  simp [users, receive, Party.key_receive]

@[simp]
theorem fronts_receive (t : Table) (key : Nat) (a : Arrival) :
    (t.receive key a).fronts = t.fronts := by
  simp [fronts, receive, Relay.receive, Party.key_receive]

/-- A step that lets who waits wait, and counts and drops nobody, enters nothing. -/
theorem entered_of_quiet (h : t.WellFormed) (hcounted : countedBy e r.effects = [])
    (hlost : lostBy w.ownerAccepts e r.effects = []) (husers : r.table.users = t.users)
    (hfronts : r.table.fronts ⊆ t.fronts)
    (hamount : ∀ m, m ≠ .relayIngressBytes → m ≠ .relayEgressBytes → amount m r.effects = 0) :
    Entered w t e r := by
  have hended : endedBy w t e r = [] := by rw [endedBy, hlost, pairedBy_of_fronts h hfronts]; rfl
  refine .of_eq hcounted hended ?_ (hamount _ nofun nofun) (hamount _ nofun nofun)
    (hamount _ nofun nofun) ?_
  · rw [husers]
    exact .refl _
  · rw [hamount .dataConnections nofun nofun, hamount .sessionsPaired nofun nofun,
      hamount .staleDataConnections nofun nofun]
    rfl

/-! Registering. -/

/-- Nobody is displaced by a user that gets an id of nobody. -/
theorem displaced_of_new {session : UInt32} (hnew : ∀ v ∈ t.waiting, v.session ≠ session) :
    others session t.waiting = t.waiting ∧ displaced session t.waiting = [] := by
  refine ⟨Keyed.filter_ne_self (f := Waiting.session) hnew, ?_⟩
  rw [displaced, List.map_eq_nil_iff, List.filter_eq_nil_iff]
  intro v hv
  simpa using hnew v hv

section Taken

variable {j : Judged} {p : Party} {buffered : Bytes}

theorem enters_of_taken (h : t.WellFormed) (taken : TakenForUser w j e p buffered)
    (hes : .count ⟨.userConnections, 1⟩ ∈ r.effects) (hpaired : r.table.paired = t.paired) :
    countedBy e r.effects = [p.key] ∧
      endedBy w t e r = if w.ownerAccepts then [] else [(p.key, .refused)] := by
  have hcounted : countedBy e r.effects = [p.key] := by
    rw [taken.key]
    cases taken <;> simp [countedBy, hes]
  have hfronts : r.table.fronts ⊆ t.fronts := by
    rw [fronts, hpaired]
    exact List.Subset.refl _
  refine ⟨hcounted, ?_⟩
  rw [endedBy, pairedBy_of_fronts h hfronts, List.append_nil,
    ← List.map_singleton (f := (·, Fate.refused)), ← hcounted]
  cases taken <;> rfl

theorem entered_register (h : t.WellFormed) (taken : TakenForUser w j e p buffered)
    (accepts : w.ownerAccepts = true) (hpaired : r.table.paired = t.paired)
    (hwaiting : r.table.waiting = t.waiting ++ [⟨p, w.ids.next, buffered, w.now⟩])
    (heffects : r.effects = [.count ⟨.userConnections, 1⟩, .announce w.ids.next]) :
    Entered w t e r := by
  obtain ⟨hcounted, hended⟩ :=
    enters_of_taken h taken (heffects ▸ List.mem_cons_self) hpaired
  rw [accepts, if_pos rfl] at hended
  refine .of_eq hcounted hended ?_ ?_ ?_ ?_ ?_
  · rw [List.map_nil, List.append_nil, users, users, hwaiting, List.map_append]
    exact .refl _
  all_goals
    rw [heffects]
    rfl

theorem entered_refuse (h : t.WellFormed) (taken : TakenForUser w j e p buffered)
    (accepts : w.ownerAccepts = false) (hpaired : r.table.paired = t.paired)
    (hwaiting : r.table.waiting = t.waiting)
    (heffects : r.effects = [.count ⟨.userConnections, 1⟩, .announce w.ids.next, .drop p.key]) :
    Entered w t e r := by
  obtain ⟨hcounted, hended⟩ :=
    enters_of_taken h taken (heffects ▸ List.mem_cons_self) hpaired
  rw [accepts, if_neg Bool.false_ne_true] at hended
  refine .of_eq hcounted hended ?_ ?_ ?_ ?_ ?_
  · rw [users, users, hwaiting]
    exact .refl _
  all_goals
    rw [heffects]
    rfl

end Taken

/-! Binding, evicting and clearing. -/

theorem uncounted_look (key : Nat) (accepts : Bool) (es : List TableEffect)
    (h : .count ⟨.userConnections, 1⟩ ∉ es) :
    countedBy (.look key) es = [] ∧ lostBy accepts (.look key) es = [] := by
  have hcounted : countedBy (.look key) es = [] := if_neg h
  refine ⟨hcounted, ?_⟩
  rw [lostBy, hcounted]
  exact ite_self _

theorem pairedBy_of_front (h : t.WellFormed) {s : Table} {user : Nat} (hu : user ∈ t.users)
    (hf : s.fronts = t.fronts ++ [user]) : pairedBy t s = [(user, .paired)] := by
  have honly : t.users.filter (· ∈ s.fronts) = t.users.filter (· = user) := by
    apply List.filter_congr
    intro k hk
    rw [hf]
    simp [h.not_front hk]
  rw [pairedBy, honly, List.filter_eq, List.count_eq_one_of_mem h.nodup_users hu]
  rfl

theorem entered_pair (h : t.WellFormed) {js : List Judged} {a b : List Waiting} {u : Waiting}
    {rest : Bytes} (data : Party) (user : t.waiting = a ++ u :: b) :
    Entered w t (.look data.key)
      { table := { t with
          judging := js
          waiting := a ++ b
          paired := t.paired ++ [join u data rest] }
        ids := w.ids
        effects := [.count ⟨.dataConnections, 1⟩, .count ⟨.sessionsPaired, 1⟩] } := by
  have hmem : u.party.key ∈ t.users := by
    rw [users, user]
    simp
  have hpaired := pairedBy_of_front h (s := { t with
      judging := js
      waiting := a ++ b
      paired := t.paired ++ [join u data rest] }) hmem (by simp [fronts, join])
  obtain ⟨hcounted, hlost⟩ := uncounted_look data.key w.ownerAccepts
    [.count ⟨.dataConnections, 1⟩, .count ⟨.sessionsPaired, 1⟩] (by simp)
  refine .of_eq hcounted (by rw [endedBy, hlost, hpaired]) ?_ rfl rfl rfl rfl
  simp only [users, user]
  simpa using List.perm_middle.trans (List.perm_append_singleton _ _).symm

theorem entered_stale (h : t.WellFormed) {js : List Judged} {data : Nat} :
    Entered w t (.look data)
      { table := { t with judging := js }
        ids := w.ids
        effects := [.count ⟨.dataConnections, 1⟩, .count ⟨.staleDataConnections, 1⟩, .drop data] } := by
  have hpaired := pairedBy_of_fronts h (s := { t with judging := js }) (List.Subset.refl _)
  obtain ⟨hcounted, hlost⟩ := uncounted_look data w.ownerAccepts
    [.count ⟨.dataConnections, 1⟩, .count ⟨.staleDataConnections, 1⟩, .drop data] (by simp)
  exact .of_eq hcounted (by rw [endedBy, hlost, hpaired]) (.refl _) rfl rfl rfl rfl

/-- The users that have waited too long. -/
def expired (w : Surroundings) (t : Table) (ttl : Nat) : List Waiting :=
  t.waiting.filter fun v => v.since + ttl ≤ w.now

theorem effects_evict (w : Surroundings) (t : Table) (ttl : Nat) :
    (t.evict w ttl).effects =
      (if (expired w t ttl).isEmpty then [] else [.count ⟨.unboundEvictions, (expired w t ttl).length⟩]) ++
        ((expired w t ttl).map (·.party.key)).map .drop := by
  rw [List.map_map]
  rfl

/-- An eviction counts whom it drops, if it drops anybody, and nothing else. -/
theorem amount_evict (w : Surroundings) (t : Table) (ttl : Nat) (m : Metric) :
    amount m (t.evict w ttl).effects =
      if m = .unboundEvictions then ((expired w t ttl).length : Int) else 0 := by
  rw [effects_evict, amount_append, amount_drops, Int.add_zero]
  cases expired w t ttl with
  | nil => simp [amount, Metrics.added]
  | cons v vs => exact Int.add_zero _

theorem dropped_evict (w : Surroundings) (t : Table) (ttl : Nat) :
    dropped (t.evict w ttl).effects = (expired w t ttl).map (·.party.key) := by
  have hcount : dropped (if (expired w t ttl).isEmpty then [] else
      [.count ⟨.unboundEvictions, (expired w t ttl).length⟩]) = [] := by
    split <;> rfl
  rw [effects_evict, dropped_append, hcount, dropped_drops, List.nil_append]

/-- Of users that all met one fate, all or none met a given one. -/
theorem filter_fate (keys : List Nat) (f g : Fate) :
    (keys.map (·, f)).filter (·.2 = g) = if f = g then keys.map (·, f) else [] := by
  split
  · rename_i hfg
    exact List.filter_eq_self.mpr fun x hx => by
      obtain ⟨k, -, rfl⟩ := List.mem_map.mp hx
      simpa using hfg
  · rename_i hfg
    exact List.filter_eq_nil_iff.mpr fun x hx => by
      obtain ⟨k, -, rfl⟩ := List.mem_map.mp hx
      simpa using hfg

theorem entered_evict (h : t.WellFormed) (ttl : Nat) : Entered w t (.evict ttl) (t.evict w ttl) := by
  have hpaired := pairedBy_of_fronts h (s := (t.evict w ttl).table) (List.Subset.refl _)
  have hended : endedBy w t (.evict ttl) (t.evict w ttl) =
      ((expired w t ttl).map (·.party.key)).map (·, .evicted) := by
    rw [endedBy, hpaired, List.append_nil, lostBy, dropped_evict]
  -- who has not waited too long goes on waiting
  have hstay : (t.evict w ttl).table.waiting = t.waiting.filter fun v => !(v.since + ttl ≤ w.now) :=
    List.filter_congr fun v _ => (decide_eq_decide.mpr Nat.not_le.symm).trans decide_not
  refine .of_eq rfl hended ?_ ?_ ?_ ?_ ?_
  · have hperm := List.filter_append_perm (fun v : Waiting => v.since + ttl ≤ w.now) t.waiting
    have hkeys := (List.perm_append_comm.trans hperm).symm.map (·.party.key)
    rw [List.map_append] at hkeys
    rw [List.map_map]
    simp only [users, hstay, countedBy, List.append_nil]
    exact hkeys.trans (.of_eq (congrArg _ (List.map_id _).symm))
  · rw [amount_evict]
    rfl
  · rw [amount_evict, filter_fate]
    rfl
  · rw [amount_evict, filter_fate, if_pos rfl, if_pos rfl, List.length_map, List.length_map]
  · simp only [amount_evict, reduceCtorEq, if_false, Int.add_zero]

theorem entered_clear (h : t.WellFormed) : Entered w t .clear (t.clear w) := by
  have hpaired := pairedBy_of_fronts h (s := (t.clear w).table) (List.Subset.refl _)
  have heffects : (t.clear w).effects = t.users.map .drop := List.map_map.symm
  have hended : endedBy w t .clear (t.clear w) = t.users.map (·, .cleared) := by
    rw [endedBy, hpaired, List.append_nil, lostBy, heffects, dropped_drops]
  have hamount : ∀ m, amount m (t.clear w).effects = 0 := fun m => by
    rw [heffects, amount_drops]
  refine .of_eq rfl hended ?_ (hamount _) ?_ ?_ ?_
  · rw [List.map_map]
    exact .of_eq (List.append_nil _ |>.trans (List.map_id _).symm)
  · rw [hamount, filter_fate]
    rfl
  · rw [hamount, filter_fate]
    rfl
  · rw [hamount, hamount, hamount]
    rfl

/-- Every move of a table keeps its account balanced, if no id is drawn under which a user
waits. -/
theorem entered_of_move (h : t.WellFormed) (hm : Move w t e r)
    (hnew : ∀ session, .announce session ∈ r.effects → ∀ v ∈ t.waiting, v.session ≠ w.ids.next) :
    Entered w t e r := by
  cases hm with
  | stay e =>
    refine entered_of_quiet h ?_ ?_ rfl (List.Subset.refl _) fun _ _ _ => rfl
    · cases e <;> rfl
    · cases e <;> simp [lostBy, countedBy, dropped]
  | accept key => exact entered_of_quiet h rfl rfl rfl (List.Subset.refl _) fun _ _ _ => rfl
  | receive key a =>
    refine entered_of_quiet h rfl rfl (users_receive t key a) ?_ fun _ _ _ => rfl
    rw [fronts_receive]
    exact List.Subset.refl _
  | read split read =>
    exact entered_of_quiet h rfl (by simp [lostBy, countedBy]) rfl (List.Subset.refl _) fun _ _ _ => rfl
  | lose split =>
    exact entered_of_quiet h (by simp [countedBy]) (by simp [lostBy, countedBy]) rfl
      (List.Subset.refl _) fun _ _ _ => rfl
  | register split taken accepts =>
    obtain ⟨hothers, hdisplaced⟩ := displaced_of_new
      (hnew _ (List.mem_append_right _ (List.mem_singleton_self _)))
    exact entered_register h taken accepts rfl (by rw [hothers]) (by rw [hdisplaced]; rfl)
  | refuse split taken accepts =>
    obtain ⟨hothers, hdisplaced⟩ := displaced_of_new
      (hnew _ (List.mem_append_right _ List.mem_cons_self))
    exact entered_refuse h taken accepts rfl (by rw [hothers]) (by rw [hdisplaced]; rfl)
  | pair split sound read user alone =>
    rename_i j _ _ _ s _
    exact entered_pair h { j.party with socket := s } user
  | stale split nobody => exact entered_stale h
  | evict ttl => exact entered_evict h ttl
  | clear => exact entered_clear h
  | relay split step =>
    refine entered_of_quiet h rfl rfl rfl ?_ fun m _ _ => amount_relay m _
    have := Relay.key_of_goesOn step .front
    simp only [Relay.party] at this
    simp [fronts, split, this]
  | close split step =>
    refine entered_of_quiet h rfl rfl rfl ?_ fun m hin hout => ?_
    · simp only [fronts, split]
      exact List.map_subset _ (subset_of_split rfl)
    · show Metrics.added m [⟨.relayIngressBytes, _⟩, ⟨.relayEgressBytes, _⟩] = 0
      rw [Metrics.added, if_neg hin, Metrics.added, if_neg hout]
      rfl
  | abort split step =>
    refine entered_of_quiet h rfl rfl rfl ?_ fun _ _ _ => rfl
    simp only [fronts, split]
    exact List.map_subset _ (subset_of_split rfl)

/-! ## Who is counted -/

theorem nodup_countedBy (e : TableEvent) (es : List TableEffect) : (countedBy e es).Nodup := by
  cases e with
  | look key | timeUp key =>
    simp only [countedBy]
    split
    · exact List.nodup_singleton _
    · exact List.nodup_nil
  | _ => exact List.nodup_nil

/-- A user is counted when its judging ends. -/
theorem judges_of_counted (h : t.WellFormed) (hm : Move w t e r) {user : Nat}
    (hu : user ∈ countedBy e r.effects) : t.Judges user ∧ ¬ r.table.Judges user := by
  have hends : ∀ {l m : List Judged} {j : Judged} {p : Party} {buffered : Bytes},
      t.judging = l ++ j :: m → TakenForUser w j e p buffered →
      t.Judges user ∧ ¬ ∃ k ∈ l ++ m, k.party.key = user := by
    intro l m j p buffered split taken
    have huser : user = j.party.key := by
      cases taken with
      | shown | late =>
        simp only [countedBy] at hu
        split at hu
        · exact List.mem_singleton.mp hu
        · cases hu
    have hnodup := h.judging
    rw [split, List.map_append, List.map_cons, List.nodup_middle] at hnodup
    refine ⟨huser ▸ judges_of_split split, ?_⟩
    rintro ⟨k, hk, hkey⟩
    rw [← List.map_append] at hnodup
    exact (List.nodup_cons.mp hnodup).1 (List.mem_map.mpr ⟨k, hk, hkey.trans huser⟩)
  cases hm with
  | register split taken _ | refuse split taken _ => exact hends split taken
  | stay e => cases e <;> simp [countedBy] at hu
  | _ => simp [countedBy] at hu

end Table

end ReverseTunnel.Proxy

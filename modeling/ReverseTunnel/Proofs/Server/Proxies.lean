import ReverseTunnel.Proofs.Proxy.History
import ReverseTunnel.Proofs.Server.Announcing

/-!
What an event does to the proxies of a server.

An event starts a proxy, stops one, lets its listener wind up, lets its table work, or
leaves the proxies alone (`Shift`). Each says what becomes of the proxies that are
registered and of the gauge of active proxies, and `shift` says that every event does
one of these.
-/

namespace ReverseTunnel.Server

open Control
open Proxy (Table TableStep TableEffect TableEvent)
open Session (ConnId IdSource)
open Wire (Message)

/-! ## The gauge of active proxies -/

/-- What an effect counts. -/
def Effect.count? : Effect → Option Count
  | .link _ (.count n) => some n
  | .table _ (.count n) => some n
  | .count n => some n
  | .link _ (.sent _) => none
  | .link _ .sentEnd => none
  | .table _ (.relay _) => none
  | .table _ (.drop _) => none
  | .table _ (.announce _) => none

/-- What effects add to the gauge of active proxies. -/
def gained (fx : List Effect) : Int := Metrics.added .dataProxiesActive (fx.filterMap Effect.count?)

theorem gained_append (fx fy : List Effect) : gained (fx ++ fy) = gained fx + gained fy := by
  rw [gained, List.filterMap_append, Metrics.added_append]
  rfl

theorem gained_eq_zero {fx : List Effect}
    (h : ∀ x ∈ fx, ∀ n, x.count? = some n → n.metric ≠ .dataProxiesActive) : gained fx = 0 := by
  unfold gained
  induction fx with
  | nil => rfl
  | cons x fx ih =>
    have hrest := ih fun y hy => h y (List.mem_cons_of_mem _ hy)
    rw [List.filterMap_cons]
    split
    · exact hrest
    · rename_i n hn
      rw [Metrics.added, if_neg (h x List.mem_cons_self n hn).symm, hrest]
      rfl

/-- A message that is emitted counts at most that its far end has stopped reading. -/
theorem added_emit {k : Metric} (hk : k ≠ .stalledPeers) (r : Run) (c : ConnId) (m : Message) :
    Metrics.added k ((r.emit c m).2.filterMap Effect.count?) = 0 := by
  unfold Run.emit
  split
  · rfl
  · simp only [Link.emit]
    split
    · rfl
    · split
      · rfl
      · simp [Effect.count?, Metrics.added, hk]

theorem gained_emit (r : Run) (c : ConnId) (m : Message) : gained (r.emit c m).2 = 0 :=
  added_emit (k := .dataProxiesActive) nofun r c m

theorem metric_of_park {t : Table} {w : Proxy.Surroundings} {user : Party} {buffered : Bytes}
    {n : Count} (h : .count n ∈ (t.park w user buffered).effects) : n.metric = .userConnections := by
  unfold Table.park at h
  dsimp only at h
  split at h
  all_goals
    simp only [List.cons_append, List.mem_cons, List.mem_append, List.mem_map, reduceCtorEq,
      and_false, exists_false, List.not_mem_nil, or_false] at h
    cases h
    rfl

theorem metric_of_pair {t : Table} {w : Proxy.Surroundings} {data : Party} {session : UInt32}
    {rest : Bytes} {n : Count} (h : .count n ∈ (t.pair w data session rest).effects) :
    n.metric ≠ .dataProxiesActive := by
  unfold Table.pair at h
  split at h
  all_goals
    simp only [List.mem_cons, TableEffect.count.injEq, reduceCtorEq, List.not_mem_nil, or_false] at h
    rcases h with rfl | rfl <;> exact nofun

theorem metric_of_table {t : Table} {w : Proxy.Surroundings} {te : TableEvent} {n : Count}
    (h : .count n ∈ (t.step w te).effects) : n.metric ≠ .dataProxiesActive := by
  cases te with
  | accept _ | receive _ _ => cases h
  | look key =>
    simp only [Table.step, Table.look] at h
    split at h
    · cases h
    · split at h
      · simp at h
      · split at h
        · rename_i judgement _ _ _
          cases judgement with
          | user buffered =>
            rw [metric_of_park h]
            decide
          | data session rest => exact metric_of_pair h
          | closed => simp [Table.settle] at h
        · cases h
  | timeUp key =>
    simp only [Table.step, Table.timeUp] at h
    split at h
    · cases h
    · split at h
      · rw [metric_of_park h]
        decide
      · cases h
  | relay key y =>
    simp only [Table.step, Table.relay] at h
    split at h
    · cases h
    · split at h
      · simp at h
      · simp only [List.cons_append, List.nil_append, List.mem_cons, TableEffect.count.injEq,
          reduceCtorEq, List.not_mem_nil, or_false] at h
        rcases h with rfl | rfl <;> simp
      · simp at h
  | evict ttl =>
    simp only [Table.step, Table.evict, List.mem_append, List.mem_map, reduceCtorEq, and_false,
      exists_false, or_false] at h
    split at h
    · cases h
    · cases List.mem_singleton.mp h
      simp
  | clear => simp [Table.step, Table.clear] at h

theorem gained_announceAll (c : ConnId) (es : List TableEffect)
    (hes : ∀ n, .count n ∈ es → n.metric ≠ .dataProxiesActive) :
    ∀ r : Run, gained (Run.announceAll c r es).2 = 0 := by
  induction es with
  | nil => exact fun _ => rfl
  | cons e es ih =>
    intro r
    have hrest := ih (fun n hn => hes n (List.mem_cons_of_mem _ hn)) (r.announce c e).1
    have he : gained (r.announce c e).2 = 0 := by
      cases e with
      | announce session => exact gained_emit r c _
      | count n =>
        apply gained_eq_zero
        intro x hx m hm
        rw [List.mem_singleton.mp hx] at hm
        cases hm
        exact hes n List.mem_cons_self
      | relay _ | drop _ => rfl
    rw [Run.announceAll, gained_append, he, hrest]
    rfl

namespace Run

variable {r : Run} {c : ConnId} {e : Event} {x : Run × List Effect}

/-! ## The clock -/

theorem now_emit (r : Run) (c : ConnId) (m : Message) : (r.emit c m).1.now = r.now := by
  unfold emit
  split <;> rfl

theorem now_perform (r : Run) (c : ConnId) (y : Action) : (r.perform c y).1.now = r.now := by
  cases y with
  | emit m => exact now_emit r c m
  | close =>
    unfold perform
    dsimp only
    split <;> rfl
  | count n => rfl
  | listen p => rfl

theorem now_performAll (c : ConnId) (ys : List Action) : ∀ r : Run,
    (performAll c r ys).1.now = r.now := by
  induction ys with
  | nil => exact fun r => rfl
  | cons y rest ih => exact fun r => (ih _).trans (now_perform r c y)

theorem now_announceAll (c : ConnId) (es : List TableEffect) : ∀ r : Run,
    (announceAll c r es).1.now = r.now := by
  induction es with
  | nil => exact fun r => rfl
  | cons te rest ih =>
    intro r
    refine (ih _).trans ?_
    cases te with
    | announce session => exact now_emit r c _
    | relay _ | drop _ | count _ => rfl

theorem now_onTable (r : Run) (c : ConnId) (te : TableEvent) : (r.onTable c te).1.now = r.now := by
  unfold onTable
  split
  · rfl
  · split
    · rfl
    · exact now_announceAll c _ _

theorem now_step (a : Seal.Aead) (r : Run) (he : ∀ ms, e ≠ .advance ms) : (r.step a e).1.now = r.now := by
  cases e with
  | connect peer => rfl
  | link d y =>
    rw [step, onLink]
    split
    · rfl
    · dsimp only
      split <;> rfl
  | handle d bind =>
    rw [step, handle]
    split
    · rfl
    · exact now_performAll d _ _
  | table d te => exact now_onTable r d te
  | sweep d =>
    rw [step, sweep]
    split
    · rfl
    · split
      · exact now_onTable _ d _
      · rfl
  | wind d =>
    rw [step, wind]
    split
    · rfl
    · split
      · exact now_onTable _ d _
      · rfl
  | advance ms => exact absurd rfl (he ms)

theorem now_le_step (a : Seal.Aead) (r : Run) (e : Event) : r.now ≤ (r.step a e).1.now := by
  by_cases hclock : ∃ ms, e = .advance ms
  · obtain ⟨ms, rfl⟩ := hclock
    exact Nat.le_add_right _ _
  · exact Nat.le_of_eq (now_step a r fun ms hms => hclock ⟨ms, hms⟩).symm

/-! ## What an event does to the proxies -/

/-- A proxy as it is when its request was granted. -/
def newProxy (r : Run) (p : Registration) : DataProxy where
  owner := p.owner
  table := { judgeDelay := r.options.judgeDelay }
  startedAt := p.startedAt

/-- What an event does to the proxies, to those that are registered, and to the gauge. -/
inductive Shift (r : Run) : Event → Run × List Effect → Prop
  | rests (e : Event) (x : Run × List Effect) (hproxies : x.1.proxies = r.proxies)
      (hregistered : x.1.registry.proxies = r.registry.proxies) (hgained : gained x.2 = 0) :
      Shift r e x
  /-- A connection finishes. -/
  | stops (c : ConnId) (y : LinkEvent) (x : Run × List Effect) (hfinished : x.1.Finished c)
      (hproxies : x.1.proxies = (r.changeProxy c fun p => { p with stopped := true }).proxies)
      (hregistered : x.1.registry.proxies = (r.registry.forget c).proxies)
      (hgained : gained x.2 = 0) : Shift r (.link c y) x
  /-- A request is granted. -/
  | starts (c : ConnId) (bind : Binder) (x : Run × List Effect) (p : Registration)
      (hhandled : ∃ l m rest, r.link? c = some l ∧ l.take? = some (m, rest)) (howner : p.owner = c)
      (hsingle : r.registry.owns c = false) (hproxies : x.1.proxies = r.proxies ++ [r.newProxy p])
      (hregistered : x.1.registry.proxies = r.registry.proxies ++ [p]) (hgained : gained x.2 = 1)
      (hstarted : p.startedAt = r.now) : Shift r (.handle c bind) x
  /-- The table of a proxy takes a step, which may be a sweep. -/
  | works (c : ConnId) (e : Event) (te : TableEvent) (x : Run × List Effect) (p : DataProxy)
      (sweeps : DataProxy → Nat) (he : e.ofProxy? = some c) (hp : r.proxy? c = some p)
      (hproxies : x.1.proxies = (r.changeProxy c fun q =>
        { q with table := (p.table.step (r.around c) te).table, sweeps := sweeps q }).proxies)
      (hregistered : x.1.registry.proxies = r.registry.proxies) (hgained : gained x.2 = 0) :
      Shift r e x
  /-- The listener of a proxy that was stopped winds up. -/
  | winds (c : ConnId) (x : Run × List Effect) (p : DataProxy) (hp : r.proxy? c = some p)
      (hstopped : p.stopped = true) (hlistening : p.listening = true)
      (hproxies : x.1.proxies = (r.changeProxy c fun q =>
        { q with listening := false, table := (p.table.clear (r.around c)).table }).proxies)
      (hregistered : x.1.registry.proxies = r.registry.proxies) (hgained : gained x.2 = -1) :
      Shift r (.wind c) x

/-! ### On a link -/

theorem shift_onLink (r : Run) (c : ConnId) (y : LinkEvent) : Shift r (.link c y) (r.onLink c y) := by
  cases hl : r.link? c with
  | none =>
    rw [onLink, hl]
    exact .rests _ _ rfl rfl rfl
  | some l =>
    have hgained : gained ((l.step y).2.map (.link c)) = 0 := by
      apply gained_eq_zero
      intro x hx n hn
      obtain ⟨z, hz, rfl⟩ := List.mem_map.mp hx
      cases z with
      | count m =>
        cases hn
        rw [Link.metric_of_step hz]
        decide
      | sent _ | sentEnd => cases hn
    rw [onLink_of_link? y hl]
    split
    · rename_i hfinish
      refine .stops c y _ ⟨(l.step y).1, ?_, hfinish.2⟩ rfl rfl hgained
      show (r.setLink c (l.step y).1).link? c = _
      rw [link?_setLink, if_pos rfl, hl]
      rfl
    · exact .rests _ _ rfl rfl hgained

/-! ### Handling a message -/

theorem startedAt_of_decided {o : Options} {bind : Binder} {now : Nat} {q : Wire.Request}
    {p : Registration} (h : decided o bind now c q = .ok p) : p.startedAt = now := by
  unfold decided at h
  split at h
  · cases h
  · cases h
    rfl

/-- What a message makes the server do starts at most one proxy. -/
theorem react_cases (o : Options) (a : Seal.Aead) (bind : Binder) (now : Nat) (reg : Registry)
    (c : ConnId) (m : Message) :
    (∃ p, p.owner = c ∧ p.startedAt = now ∧ reg.owns c = false ∧
        react o a bind now reg c m = (reg.register p, [.emit (granted o p.bound.port), .listen p])) ∨
      ((react o a bind now reg c m).1.proxies = reg.proxies ∧
        ∀ y ∈ (react o a bind now reg c m).2, (∀ p, y ≠ .listen p) ∧
          ∀ n, y = .count n → n.metric ≠ .dataProxiesActive) := by
  cases m with
  | auth token =>
    right
    simp only [react, onAuth]
    split
    · exact ⟨Registry.proxies_authenticate reg c, by simp⟩
    · exact ⟨rfl, by split <;> simp⟩
  | heartbeat timestamp =>
    refine .inr ⟨rfl, ?_⟩
    simp only [react, onHeartbeat]
    split <;> simp
  | openDataPort sealedRequest =>
    simp only [react, onOpenDataPort]
    split
    · rename_i p hp
      obtain ⟨q, hvalid, -, hdecided⟩ := valid_of_provision hp
      exact .inl ⟨p, provision_owner hp, startedAt_of_decided hdecided, hvalid.single, rfl⟩
    · refine .inr ⟨rfl, fun y hy => ⟨?_, ?_⟩⟩
      · rintro p rfl
        simp at hy
      · rintro n rfl
        simp only [List.mem_cons, Action.count.injEq, reduceCtorEq, List.not_mem_nil, or_false] at hy
        rw [hy]
        decide
  | _ => exact .inr ⟨rfl, fun y hy => absurd hy List.not_mem_nil⟩

theorem proxies_performAll (c : ConnId) {ys : List Action}
    (hys : ∀ y ∈ ys, (∀ p, y ≠ .listen p) ∧ ∀ n, y = .count n → n.metric ≠ .dataProxiesActive) :
    ∀ r : Run, (performAll c r ys).1.proxies = r.proxies ∧ gained (performAll c r ys).2 = 0 := by
  induction ys with
  | nil => exact fun _ => ⟨rfl, rfl⟩
  | cons y ys ih =>
    intro r
    obtain ⟨hproxies, hgained⟩ := ih (fun z hz => hys z (List.mem_cons_of_mem _ hz)) (r.perform c y).1
    obtain ⟨hlisten, hcount⟩ := hys y List.mem_cons_self
    have hy : (r.perform c y).1.proxies = r.proxies ∧ gained (r.perform c y).2 = 0 := by
      cases y with
      | emit m => exact ⟨(emit_frame r c m).1, gained_emit r c m⟩
      | close =>
        unfold perform
        dsimp only
        split <;> exact ⟨rfl, rfl⟩
      | count n =>
        refine ⟨rfl, gained_eq_zero fun x hx m hm => ?_⟩
        rw [List.mem_singleton.mp hx] at hm
        cases hm
        exact hcount n rfl
      | listen p => exact absurd rfl (hlisten p)
    rw [performAll]
    refine ⟨hproxies.trans hy.1, ?_⟩
    rw [gained_append, hy.2, hgained]
    rfl

theorem proxies_of_grant (r : Run) (c : ConnId) (m : Message) (p : Registration) :
    (performAll c r [.emit m, .listen p]).1.proxies =
        r.proxies ++ [{ owner := p.owner, table := { judgeDelay := r.options.judgeDelay },
                        startedAt := r.now }] ∧
      gained (performAll c r [.emit m, .listen p]).2 = 1 := by
  constructor
  · show (r.emit c m).1.proxies ++
      [{ owner := p.owner, table := { judgeDelay := (r.emit c m).1.options.judgeDelay },
         startedAt := (r.emit c m).1.now }] = _
    rw [(emit_frame r c m).1, (confined_emit r c m).options, now_emit]
  · rw [performAll, gained_append, show gained (r.perform c (.emit m)).2 = 0 from gained_emit r c m]
    rfl

theorem shift_handle (a : Seal.Aead) (bind : Binder) (r : Run) (c : ConnId) :
    Shift r (.handle c bind) (r.handle a bind c) := by
  cases hbind : (r.link? c).bind Link.take? with
  | none =>
    rw [handle, hbind]
    exact .rests _ _ rfl rfl rfl
  | some taken =>
    obtain ⟨m, rest⟩ := taken
    obtain ⟨l, hl, ht⟩ := Option.bind_eq_some_iff.mp hbind
    have hregistry := (confined_handle a bind hl ht).registry
    have hstep : r.handle a bind c = performAll c
        { r.setLink c rest with registry := (react r.options a bind r.now r.registry c m).1 }
        (react r.options a bind r.now r.registry c m).2 := by
      rw [handle, hbind]
    rcases react_cases r.options a bind r.now r.registry c m with
      ⟨p, howner, hstarted, hsingle, hreact⟩ | ⟨hproxies, hactions⟩
    · rw [hreact] at hregistry hstep
      let taken : Run := { r.setLink c rest with registry := r.registry.register p }
      have hstep' : r.handle a bind c =
          performAll c taken [.emit (granted r.options p.bound.port), .listen p] := hstep
      obtain ⟨hproxies, hgained⟩ := proxies_of_grant taken c (granted r.options p.bound.port) p
      rw [← hstep'] at hproxies hgained
      refine .starts c bind _ p ⟨l, m, rest, hl, ht⟩ howner hsingle ?_ (congrArg _ hregistry) hgained
        hstarted
      rw [hproxies, newProxy, hstarted]
      rfl
    · obtain ⟨hsame, hgained⟩ := proxies_performAll c hactions
        { r.setLink c rest with registry := (react r.options a bind r.now r.registry c m).1 }
      rw [← hstep] at hsame hgained
      exact .rests _ _ hsame ((congrArg _ hregistry).trans hproxies) hgained

/-! ### At a proxy -/

theorem changeProxy_changeProxy (r : Run) (c : ConnId) {f g : DataProxy → DataProxy}
    (hf : ∀ p, (f p).owner = p.owner) :
    ((r.changeProxy c f).changeProxy c g).proxies = (r.changeProxy c fun p => g (f p)).proxies := by
  simp only [changeProxy, List.map_map]
  apply List.map_congr_left
  intro p _
  by_cases hp : p.owner = c
  · simp [hp, hf]
  · simp [hp]

theorem proxies_onTable {p : DataProxy} (hp : r.proxy? c = some p) (te : TableEvent)
    (hopen : ∀ key, te = .accept key → p.listening = true) :
    (r.onTable c te).1.proxies = (r.changeProxy c fun q =>
        { q with table := (p.table.step (r.around c) te).table }).proxies ∧
      (r.onTable c te).1.registry = r.registry ∧ gained (r.onTable c te).2 = 0 := by
  obtain ⟨sessions, hconfined⟩ := confined_onTable r c te
  have hframe := (announceAll_frame (c := c) (p.table.step (r.around c) te).effects
    (r.stepped c (p.table.step (r.around c) te))).1
  have hgained := gained_announceAll c (p.table.step (r.around c) te).effects
    (fun n hn => metric_of_table hn) (r.stepped c (p.table.step (r.around c) te))
  rw [← onTable_eq hp te hopen] at hframe hgained
  exact ⟨hframe, hconfined.registry, hgained⟩

theorem proxies_changeProxy_onTable {p : DataProxy} (hp : r.proxy? c = some p)
    {f : DataProxy → DataProxy} (howner : ∀ p, (f p).owner = p.owner) (htable : (f p).table = p.table)
    (te : TableEvent) (hte : ∀ key, te ≠ .accept key) :
    ((r.changeProxy c f).onTable c te).1.proxies = (r.changeProxy c fun q =>
        { f q with table := (p.table.step (r.around c) te).table }).proxies ∧
      ((r.changeProxy c f).onTable c te).1.registry = r.registry ∧
      gained ((r.changeProxy c f).onTable c te).2 = 0 := by
  have hp' : (r.changeProxy c f).proxy? c = some (f p) := by
    rw [proxy?_changeProxy r c c howner, if_pos rfl, hp]
    rfl
  obtain ⟨hproxies, hregistry, hgained⟩ := proxies_onTable hp' te fun key hkey => absurd hkey (hte key)
  rw [changeProxy_changeProxy r c howner, htable] at hproxies
  exact ⟨hproxies, hregistry, hgained⟩

theorem shift_ofProxy? (a : Seal.Aead) (r : Run) (he : e.ofProxy? = some c) : Shift r e (r.step a e) := by
  cases hp : r.proxy? c with
  | none =>
    cases e with
    | table d te | sweep d | wind d =>
      cases he
      simp only [step, onTable, sweep, wind, hp]
      exact .rests _ _ rfl rfl rfl
    | _ => cases he
  | some p =>
    cases e with
    | table d te =>
      cases he
      by_cases hdeaf : (∃ key, te = .accept key) ∧ p.listening = false
      · obtain ⟨⟨key, rfl⟩, hdeaf⟩ := hdeaf
        rw [step, onTable_of_deaf hp hdeaf]
        exact .rests _ _ rfl rfl rfl
      · obtain ⟨hproxies, hregistry, hgained⟩ := proxies_onTable hp te fun key hkey => by
          by_contra hnot
          exact hdeaf ⟨⟨key, hkey⟩, by simpa using hnot⟩
        exact .works c _ te _ p (·.sweeps) rfl hp hproxies (congrArg _ hregistry) hgained
    | sweep d =>
      cases he
      simp only [step, sweep, hp]
      split
      · obtain ⟨hproxies, hregistry, hgained⟩ := proxies_changeProxy_onTable hp
          (f := fun p => { p with sweeps := p.sweeps + 1 }) (fun _ => rfl) rfl
          (.evict r.options.unboundTtl) fun _ h => by cases h
        exact .works c _ (.evict r.options.unboundTtl) _ p (·.sweeps + 1) rfl hp hproxies
          (congrArg _ hregistry) hgained
      · exact .rests _ _ rfl rfl rfl
    | wind d =>
      cases he
      simp only [step, wind, hp]
      split
      · rename_i hends
        obtain ⟨hproxies, hregistry, hgained⟩ := proxies_changeProxy_onTable hp
          (f := fun p => { p with listening := false }) (fun _ => rfl) rfl .clear fun _ h => by cases h
        refine .winds c _ p hp hends.1 hends.2 hproxies (congrArg _ hregistry) ?_
        rw [gained_append, hgained]
        rfl
      · exact .rests _ _ rfl rfl rfl
    | _ => cases he

/-- Every event does to the proxies one of the things listed. -/
theorem shift (a : Seal.Aead) (r : Run) (e : Event) : Shift r e (r.step a e) := by
  cases e with
  | connect peer => exact .rests _ _ rfl rfl rfl
  | link c y => exact shift_onLink r c y
  | handle c bind => exact shift_handle a bind r c
  | table c te | sweep c | wind c => exact shift_ofProxy? a r rfl
  | advance ms => exact .rests _ _ rfl rfl rfl

end Run

end ReverseTunnel.Server

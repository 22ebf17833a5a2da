import ReverseTunnel.Proofs.Proxy.History
import ReverseTunnel.Proofs.Server.Proxies
import ReverseTunnel.Proofs.Server.Teardown

/-!
The proxies of a server are an exchange.

The session tables of the proxies share the clock of the server and its source of session
ids, and a proxy that has not started yet is an empty table. Whatever happens to the server
is then something that happens to an exchange: a table does its work, time passes, or
nothing changes (`plays_inner`); who comes in comes in (`plays_accept`), and what a far end
does reaches the one table that has its connection (`plays_deliver`). So what holds of every
run of an exchange holds of the tables of every server.
-/

namespace ReverseTunnel.Proxy.Table

variable {t : Table} {key : Nat}

theorem receive_of_ne {p : Party} (h : p.key ≠ key) (a : Arrival) : p.receive key a = p := if_neg h

theorem receive_of_not_mem (h : key ∉ t.keys) (a : Arrival) : t.receive key a = t := by
  simp only [keys, List.mem_append, List.mem_map, List.mem_flatMap, not_or, not_exists, not_and]
    at h
  obtain ⟨⟨hjudging, hwaiting⟩, hpaired⟩ := h
  have hj : t.judging.map (fun j => { j with party := j.party.receive key a }) = t.judging := by
    refine (List.map_congr_left fun j hj => ?_).trans (List.map_id _)
    rw [receive_of_ne (hjudging j hj)]
    rfl
  have hw : t.waiting.map (fun v => { v with party := v.party.receive key a }) = t.waiting := by
    refine (List.map_congr_left fun v hv => ?_).trans (List.map_id _)
    rw [receive_of_ne (hwaiting v hv)]
    rfl
  have hp : t.paired.map (fun p => { p with relay := p.relay.receive key a }) = t.paired := by
    refine (List.map_congr_left fun p hp => ?_).trans (List.map_id _)
    have hkey := hpaired p hp
    simp only [pairKeys, List.mem_cons, List.not_mem_nil, or_false, not_or] at hkey
    rw [Relay.receive, receive_of_ne (Ne.symm hkey.1), receive_of_ne (Ne.symm hkey.2)]
    rfl
  rw [receive, hj, hw, hp]

end ReverseTunnel.Proxy.Table

namespace ReverseTunnel.Server

open Proxy (Table TableEvent Exchange Occurrence Task)
open Session (ConnId)

/-- With an event nobody comes in at a proxy, and nothing comes from a connection there. -/
def Event.isInner : Event → Bool
  | .table _ (.accept _) => false
  | .table _ (.receive _ _) => false
  | _ => true

namespace Run

variable {r : Run} {c d : ConnId} {e : Event} {p : DataProxy} {key nextKey : Nat}

/-- The session table of the proxy of a connection; it is empty until the proxy starts. -/
def table (r : Run) (c : ConnId) : Table :=
  ((r.proxy? c).map (·.table)).getD { judgeDelay := r.options.judgeDelay }

/-- The tables of a server, with the number of the next connection that comes in. -/
def exchange (r : Run) (nextKey : Nat) : Exchange ConnId :=
  { tables := r.table, ids := r.ids, now := r.now, nextKey }

theorem table_of_proxy? (hp : r.proxy? c = some p) : r.table c = p.table := by
  rw [table, hp]
  rfl

theorem table_of_none (hp : r.proxy? c = none) : r.table c = { judgeDelay := r.options.judgeDelay } := by
  rw [table, hp]
  rfl

/-- A connection is at a table only if the proxy has started. -/
theorem proxy?_of_mem_keys (h : key ∈ (r.table c).keys) : ∃ p, r.proxy? c = some p := by
  cases hp : r.proxy? c with
  | some p => exact ⟨p, rfl⟩
  | none =>
    rw [table_of_none hp] at h
    simp [Table.keys] at h

theorem exchange_eq {x : Run} {y : Exchange ConnId} (htables : ∀ d, x.table d = y.tables d)
    (hids : x.ids = y.ids) (hnow : x.now = y.now) : x.exchange y.nextKey = y := by
  cases y
  simp only [exchange, Exchange.mk.injEq]
  exact ⟨funext htables, hids, hnow, trivial⟩

/-- What happens to a server is to its tables something that happens to an exchange. -/
structure Plays (r : Run) (nextKey : Nat) (x : Run × List Effect) (o : Occurrence ConnId) :
    Prop where
  state : x.1.exchange ((r.exchange nextKey).step o).1.nextKey = ((r.exchange nextKey).step o).1
  brings : ∀ key, outgoing x.2 key = Proxy.outgoing ((r.exchange nextKey).step o).2 key

theorem table_of_apart (a : Seal.Aead) (hd : e.about? ≠ some d) : (r.step a e).1.table d = r.table d := by
  obtain ⟨-, -, hsame⟩ := (turn a r e).apart hd
  rw [table, table, hsame, (turn a r e).options]

theorem plays_nothing {x : Run × List Effect} (htables : ∀ d, x.1.table d = r.table d)
    (hids : x.1.ids = r.ids) (hnow : x.1.now = r.now) (hquiet : ∀ key, outgoing x.2 key = []) :
    Plays r nextKey x (.advance 0) where
  state := exchange_eq htables hids hnow
  brings := hquiet

theorem Works.plays {a : Seal.Aead} {task : Task} (he : e.ofProxy? = some c)
    (hp : r.proxy? c = some p)
    (h : Works r c (p.table.step (r.around c) task.event) (r.step a e)) :
    Plays r nextKey (r.step a e) (.act c (r.around c).ownerAccepts task) := by
  have hturn : (r.exchange nextKey).turn c (r.around c).ownerAccepts task =
      p.table.step (r.around c) task.event := by
    show (r.table c).step _ _ = _
    rw [table_of_proxy? hp]
    rfl
  constructor
  · refine exchange_eq (fun d => ?_) ?_ (now_step a r fun ms hms => by subst hms; cases he)
    · simp only [Exchange.step, Exchange.tables_change, hturn]
      split
      · rename_i hd
        rw [hd]
        obtain ⟨q, hq, htable⟩ := Option.map_eq_some_iff.mp h.proxy
        rw [table_of_proxy? hq, htable]
      · rename_i hd
        apply table_of_apart
        rw [Event.about?_of_ofProxy? he]
        exact fun hcd => hd (Option.some.inj hcd).symm
    · simp only [Exchange.step, hturn]
      exact h.ids
  · intro key
    simp only [Exchange.step, hturn]
    exact h.brings key

/-! ## What happens beside the proxies -/

theorem outgoing_links (c : ConnId) (fx : List Control.LinkEffect) (key : Nat) :
    outgoing (fx.map (.link c)) key = [] :=
  List.flatMap_eq_nil_iff.mpr fun x hx => by
    obtain ⟨y, -, rfl⟩ := List.mem_map.mp hx
    rfl

theorem outgoing_performAll (c : ConnId) (key : Nat) (ys : List Action) : ∀ r : Run,
    outgoing (performAll c r ys).2 key = [] := by
  induction ys with
  | nil => exact fun _ => rfl
  | cons y rest ih =>
    intro r
    have hfirst : outgoing (r.perform c y).2 key = [] := by
      cases y with
      | emit m => exact outgoing_emit r c m key
      | close =>
        unfold perform
        dsimp only
        split <;> rfl
      | count n => rfl
      | listen q => rfl
    rw [performAll, outgoing_append, hfirst, ih]
    rfl

theorem outgoing_of_none (a : Seal.Aead) (r : Run) (he : e.ofProxy? = none) (key : Nat) :
    outgoing (r.step a e).2 key = [] := by
  cases e with
  | connect _ | advance _ => rfl
  | link c y =>
    rw [step, onLink]
    split
    · rfl
    · exact outgoing_links c _ key
  | handle c bind =>
    rw [step, handle]
    split
    · rfl
    · exact outgoing_performAll c key _ _
  | _ => cases he

theorem table_of_changeProxy {x : Run} {f : DataProxy → DataProxy}
    (hproxies : x.proxies = (r.changeProxy c f).proxies) (hoptions : x.options = r.options)
    (hf : ∀ p, (f p).owner = p.owner) (htable : ∀ p, (f p).table = p.table) (d : ConnId) :
    x.table d = r.table d := by
  have hsame : x.proxy? d = (r.changeProxy c f).proxy? d := by rw [proxy?, hproxies, proxy?]
  rw [table, table, hsame, hoptions, proxy?_changeProxy r c d hf]
  split
  · rename_i hd
    have hf' : (fun p : DataProxy => p.table) ∘ f = fun p => p.table := funext htable
    rw [hd, Option.map_map, hf']
  · rfl

theorem table_step_of_none (a : Seal.Aead) (r : Run) (he : e.ofProxy? = none) (d : ConnId) :
    (r.step a e).1.table d = r.table d := by
  have hoptions := (turn a r e).options
  have hs := shift a r e
  generalize r.step a e = x at hs hoptions
  cases hs with
  | rests _ _ hproxies =>
    have hsame : x.1.proxy? d = r.proxy? d := by rw [proxy?, hproxies, proxy?]
    rw [table, table, hsame, hoptions]
  | stops c y _ _ hproxies => exact table_of_changeProxy hproxies hoptions (fun _ => rfl) (fun _ => rfl) d
  | starts c bind _ q _ _ _ hproxies =>
    -- the table of a proxy that starts is empty, as if it had been there before
    have hfind : x.1.proxy? d = (r.proxy? d).or ([r.newProxy q].find? (·.owner = d)) := by
      rw [proxy?, hproxies, List.find?_append]
      rfl
    cases hd : r.proxy? d with
    | some p =>
      rw [hd, Option.some_or] at hfind
      rw [table_of_proxy? hfind, table_of_proxy? hd]
    | none =>
      rw [hd, Option.none_or] at hfind
      rw [table_of_none hd]
      cases hnew : [r.newProxy q].find? (·.owner = d) with
      | none =>
        rw [table, hfind, hnew, hoptions]
        rfl
      | some p =>
        rw [table_of_proxy? (hfind.trans hnew), List.mem_singleton.mp (List.mem_of_find?_eq_some hnew)]
        rfl
  | works _ _ _ _ _ _ hc => cases he.symm.trans hc
  | winds => cases he

/-! ## What happens to the tables -/

/-- An event with which nobody comes in, and nothing comes from a connection at a proxy, lets a
table do its work, lets time pass, or is nothing to the tables. -/
theorem plays_inner (a : Seal.Aead) (r : Run) (nextKey : Nat) (he : e.isInner = true) :
    (∃ c accepts task, Plays r nextKey (r.step a e) (.act c accepts task) ∧
        ∀ key, task = .timeUp key → e = .table c (.timeUp key)) ∨
      ∃ ms, Plays r nextKey (r.step a e) (.advance ms) := by
  cases hc : e.ofProxy? with
  | none =>
    right
    by_cases hclock : ∃ ms, e = .advance ms
    · obtain ⟨ms, rfl⟩ := hclock
      exact ⟨ms, exchange_eq (fun _ => rfl) rfl rfl, fun _ => rfl⟩
    · exact ⟨0, plays_nothing (table_step_of_none a r hc) (ids_of_none a r hc)
        (now_step a r fun ms hms => hclock ⟨ms, hms⟩) (outgoing_of_none a r hc)⟩
  | some c =>
    rcases works_or_still a r hc with ⟨p, te, hp, ho, hworks⟩ | ⟨hstill, -⟩
    · left
      have hplays : ∀ task : Task, te = task.event →
          Plays r nextKey (r.step a e) (.act c (r.around c).ownerAccepts task) := fun task htask =>
        Works.plays hc hp (htask ▸ hworks)
      cases ho with
      | sweep => exact ⟨c, _, .evict r.options.unboundTtl, hplays _ rfl, nofun⟩
      | wind => exact ⟨c, _, .clear, hplays _ rfl, nofun⟩
      | table te =>
        cases te with
        | accept _ | receive _ _ => cases he
        | look k => exact ⟨c, _, .look k, hplays _ rfl, nofun⟩
        | timeUp k =>
          refine ⟨c, _, .timeUp k, hplays _ rfl, fun key hkey => ?_⟩
          cases hkey
          rfl
        | relay k y => exact ⟨c, _, .relay k y, hplays _ rfl, nofun⟩
        | evict ttl => exact ⟨c, _, .evict ttl, hplays _ rfl, nofun⟩
        | clear => exact ⟨c, _, .clear, hplays _ rfl, nofun⟩
    · refine .inr ⟨0, plays_nothing (fun d => ?_) hstill.ids
        (now_step a r fun ms hms => by subst hms; cases hc) fun key => by rw [hstill.quiet]; rfl⟩
      by_cases hd : d = c
      · subst hd
        rw [table, hstill.proxy, (turn a r e).options]
        rfl
      · apply table_of_apart
        rw [Event.about?_of_ofProxy? hc]
        exact fun hcd => hd (Option.some.inj hcd).symm

/-- A proxy that listens lets in who comes. -/
theorem plays_accept (a : Seal.Aead) (hp : r.proxy? c = some p) (hlistening : p.listening = true) :
    Plays r nextKey (r.step a (.table c (.accept nextKey))) (.comeIn c) := by
  have hworks : Works r c (p.table.step (r.around c) (.accept nextKey))
      (r.step a (.table c (.accept nextKey))) := works_onTable hp _ fun _ _ => hlistening
  constructor
  · refine exchange_eq (fun d => ?_) hworks.ids (now_step a r nofun)
    simp only [Exchange.step, Exchange.tables_change]
    split
    · rename_i hd
      rw [hd]
      obtain ⟨q, hq, htable⟩ := Option.map_eq_some_iff.mp hworks.proxy
      rw [table_of_proxy? hq, htable]
      show _ = (r.table c).accept _ _
      rw [table_of_proxy? hp]
      rfl
    · rename_i hd
      exact table_of_apart a fun hcd => hd (Option.some.inj hcd).symm
  · exact hworks.brings

/-- The proxy at which a connection is. -/
def home? (r : Run) (key : Nat) : Option ConnId :=
  (r.proxies.map (·.owner)).find? fun c => key ∈ (r.table c).keys

theorem home?_eq_none (h : r.home? key = none) (c : ConnId) : key ∉ (r.table c).keys := by
  intro hkey
  obtain ⟨p, hp⟩ := proxy?_of_mem_keys hkey
  obtain ⟨hmem, howner⟩ := mem_of_proxy? hp
  have hnot := List.find?_eq_none.mp h c (List.mem_map.mpr ⟨p, hmem, howner⟩)
  exact hnot (decide_eq_true hkey)

theorem mem_keys_of_home? (h : r.home? key = some c) : key ∈ (r.table c).keys := by
  have hsome := List.find?_some h
  exact of_decide_eq_true hsome

/-- What the far end of a connection does reaches the proxy at which the connection is. -/
def deliver (a : Seal.Aead) (r : Run) (key : Nat) (b : Arrival) : Run × List Effect :=
  match r.home? key with
  | none => (r, [])
  | some c => r.step a (.table c (.receive key b))

theorem plays_deliver (a : Seal.Aead) (hwf : (r.exchange nextKey).WellFormed) (key : Nat) (b : Arrival) :
    Plays r nextKey (r.deliver a key b) (.receive key b) := by
  unfold deliver
  cases hhome : r.home? key with
  | none =>
    refine ⟨exchange_eq (fun d => ?_) rfl rfl, fun _ => rfl⟩
    exact (Table.receive_of_not_mem (home?_eq_none hhome d) b).symm
  | some c =>
    have hkey : key ∈ (r.table c).keys := mem_keys_of_home? hhome
    obtain ⟨p, hp⟩ := proxy?_of_mem_keys hkey
    have hworks : Works r c (p.table.step (r.around c) (.receive key b))
        (r.step a (.table c (.receive key b))) := works_onTable hp _ nofun
    refine ⟨exchange_eq (fun d => ?_) hworks.ids (now_step a r nofun), hworks.brings⟩
    show _ = (r.table d).receive key b
    by_cases hd : d = c
    · rw [hd, table_of_proxy? hp]
      obtain ⟨q, hq, htable⟩ := Option.map_eq_some_iff.mp hworks.proxy
      rw [table_of_proxy? hq, htable]
      rfl
    · -- no other table has it
      have hnot : key ∉ (r.table d).keys := fun hd' => hd (hwf.apart d c key hd' hkey)
      rw [Table.receive_of_not_mem hnot]
      exact table_of_apart a fun hcd => hd (Option.some.inj hcd).symm

end Run

end ReverseTunnel.Server

import Mathlib.Tactic.IntervalCases
import ReverseTunnel.Proofs.Server.AnnouncementOrder
import ReverseTunnel.Proofs.Server.Replies
import ReverseTunnel.Proofs.Server.Teardown

/-!
When users that wait too long are dropped.

A proxy sweeps its table at times that are fixed when it starts, and a user comes in at any time
between two of them.

What is proved (`sweeps_in_time`):
1. The sweep that comes first after a user's time-to-live is up drops it, and no earlier one
   does: the last sweep before now was not later than the end of the time-to-live of anybody who
   waits (`Swept`), and the next is at most one period away.
2. Who was dropped leaves an id under which nobody waits until it has gone round, so that a data
   connection that presents it is stale.

What is assumed: only for the upper bound, that the clock passes no moment at which a proxy that
listens is to sweep (`Punctual`).

What is not said: how late a sweep is where something holds a proxy up.
-/

namespace ReverseTunnel.Proxy

open Session

namespace Table

variable {w : Surroundings} {t : Table} {e : TableEvent}

/-! ## Who waits at a table -/

/-- What a step of a table can do to those who wait. -/
inductive Waiters (w : Surroundings) (t : Table) : TableEvent → List Waiting → Prop
  | stay (e : TableEvent) : Waiters w t e t.waiting
  | receive (key : Nat) (a : Arrival) :
      Waiters w t (.receive key a) (t.waiting.map fun v => { v with party := v.party.receive key a })
  /-- Whoever waits under one id leaves. -/
  | leave (e : TableEvent) (session : UInt32) : Waiters w t e (others session t.waiting)
  | come (e : TableEvent) (user : Party) (buffered : Bytes) :
      Waiters w t e (others w.ids.next t.waiting ++ [⟨user, w.ids.next, buffered, w.now⟩])
  | evict (ttl : Nat) : Waiters w t (.evict ttl) (t.waiting.filter fun v => w.now < v.since + ttl)
  | clear : Waiters w t .clear []

theorem waiters_settle (js : List Judged) (p : Party) (j : Judgement) :
    Waiters w t e (({ t with judging := js } : Table).settle w p j).table.waiting := by
  cases j with
  | user buffered =>
    cases haccepts : w.ownerAccepts with
    | true =>
      rw [settle, waiting_park_of_accepts _ _ _ _ haccepts]
      exact .come e p buffered
    | false =>
      rw [settle, (park_of_refuses _ _ _ _ haccepts).2]
      exact .leave e _
  | data session rest =>
    rw [settle, pair]
    split
    · exact .stay e
    · exact .leave e session
  | closed => exact .stay e

theorem waiters_step (w : Surroundings) (t : Table) (e : TableEvent) :
    Waiters w t e (t.step w e).table.waiting := by
  cases e with
  | accept key => exact .stay _
  | receive key a => exact .receive key a
  | look key =>
    rw [step, look]
    split
    · exact .stay _
    · split
      · exact .stay _
      · split
        · exact waiters_settle _ _ _
        · exact .stay _
  | timeUp key =>
    rw [step, timeUp]
    split
    · exact .stay _
    · split
      · exact waiters_settle _ _ _
      · exact .stay _
  | relay key y =>
    rw [step, relay]
    split
    · exact .stay _
    · dsimp only
      split <;> exact .stay _
  | evict ttl => exact .evict ttl
  | clear => exact .clear

variable {vs : List Waiting}

theorem Waiters.nodup (h : Waiters w t e vs) (hs : (t.waiting.map (·.session)).Nodup) :
    (vs.map (·.session)).Nodup := by
  cases h with
  | stay => exact hs
  | receive => rwa [List.map_map]
  | leave | evict => exact hs.sublist (List.Sublist.map _ List.filter_sublist)
  | come user buffered =>
    rw [List.map_append, List.map_singleton, List.nodup_append]
    refine ⟨hs.sublist (List.Sublist.map _ List.filter_sublist), List.nodup_singleton _, ?_⟩
    intro session hsession session' hsession'
    obtain ⟨v, hv, rfl⟩ := List.mem_map.mp hsession
    rw [List.mem_singleton.mp hsession']
    exact (session_of_mem_others hv).2
  | clear => exact List.nodup_nil

theorem Waiters.since (h : Waiters w t e vs) {v : Waiting} (hv : v ∈ vs) :
    v.since = w.now ∨ ∃ u ∈ t.waiting, u.since = v.since := by
  cases h with
  | stay => exact .inr ⟨v, hv, rfl⟩
  | receive =>
    obtain ⟨u, hu, rfl⟩ := List.mem_map.mp hv
    exact .inr ⟨u, hu, rfl⟩
  | leave => exact .inr ⟨v, (session_of_mem_others hv).1, rfl⟩
  | come user buffered =>
    rcases List.mem_append.mp hv with hv | hv
    · exact .inr ⟨v, (session_of_mem_others hv).1, rfl⟩
    · rw [List.mem_singleton.mp hv]
      exact .inl rfl
  | evict => exact .inr ⟨v, (List.mem_filter.mp hv).1, rfl⟩
  | clear => cases hv

/-- A connection that is judged next under a key begins with the handshake of a session. -/
def Hands (t : Table) (key : Nat) (session : UInt32) : Prop :=
  ∃ j, t.judging.find? (·.party.key = key) = some j ∧ j.party.socket.broken = false ∧
    Handshake.encode session <+: j.buffer ++ j.party.socket.unread

/-- A data connection is dropped if nobody waits under the id that it hands over. -/
theorem look_of_hands {key : Nat} {session : UInt32} (h : t.Hands key session)
    (hnobody : ∀ v ∈ t.waiting, v.session ≠ session) :
    t.look w key =
      { table := { t with judging := dismiss key t.judging }, ids := w.ids
        effects := [.count ⟨.dataConnections, 1⟩, .count ⟨.staleDataConnections, 1⟩, .drop key] } := by
  obtain ⟨j, hj, sound, hprefix⟩ := h
  obtain ⟨rest, seen, s, hlook⟩ := look_of_handshake hprefix
  have hkey : j.party.key = key := by simpa using List.find?_some hj
  have hnone : t.waiting.find? (·.session = session) = none := by
    rw [List.find?_eq_none]
    intro v hv hs
    exact hnobody v hv (by simpa using hs)
  simp only [look, hj, sound, Bool.false_eq_true, if_false, hlook, settle, pair, hnone, hkey]

end Table

end ReverseTunnel.Proxy

namespace ReverseTunnel.Server.Run

open Control
open Proxy (Table TableEvent TableEffect Waiting)
open Session (ConnId IdSource maxId)
open Wire (Message)

variable {a : Seal.Aead} {o : Options} {first : UInt32} {r : Run} {c : ConnId} {e : Event}
  {p q : DataProxy}

/-! ## The proxy of a connection -/

/-- When a proxy sweeps its table next. -/
def nextSweep (r : Run) (p : DataProxy) : Nat := sweepTime p.startedAt r.options.unboundTtl p.sweeps

/-- What an event can do to the proxy of a connection. -/
inductive Tended (r : Run) (c : ConnId) (p : DataProxy) : Event → DataProxy → Prop
  /-- Its owner may have finished. -/
  | rest (e : Event) (stopped : Bool) : Tended r c p e { p with stopped }
  | work (te : TableEvent) :
      Tended r c p (.table c te) { p with table := (p.table.step (r.around c) te).table }
  | sweep (hlistening : p.listening = true) (hdue : r.nextSweep p ≤ r.now) :
      Tended r c p (.sweep c)
        { p with sweeps := p.sweeps + 1, table := (p.table.evict (r.around c) r.options.unboundTtl).table }
  | wind : Tended r c p (.wind c)
      { p with listening := false, table := (p.table.clear (r.around c)).table }

theorem proxy?_of_proxies {x : Run} {f : DataProxy → DataProxy} (hp : r.proxy? c = some p)
    (hx : x.proxies = (r.changeProxy c f).proxies) (hf : ∀ p, (f p).owner = p.owner) :
    x.proxy? c = some (f p) := by
  have hsame : x.proxy? c = (r.changeProxy c f).proxy? c := by rw [proxy?, hx, proxy?]
  rw [hsame, proxy?_changeProxy r c c hf, if_pos rfl, hp]
  rfl

theorem proxy?_sweep (hp : r.proxy? c = some p) (hlistening : p.listening = true)
    (hdue : r.nextSweep p ≤ r.now) :
    (r.sweep c).1.proxy? c = some { p with
      sweeps := p.sweeps + 1
      table := (p.table.evict (r.around c) r.options.unboundTtl).table } := by
  have hproxies := (proxies_changeProxy_onTable hp (f := fun p => { p with sweeps := p.sweeps + 1 })
    (fun _ => rfl) rfl (.evict r.options.unboundTtl) nofun).1
  have hx := proxy?_of_proxies hp hproxies fun _ => rfl
  rw [sweep, hp]
  dsimp only
  rw [if_pos ⟨hlistening, hdue⟩]
  exact hx

/-- Every event does one of these to a proxy. -/
theorem tended (a : Seal.Aead) (e : Event) (hp : r.proxy? c = some p) :
    ∃ q, (r.step a e).1.proxy? c = some q ∧ Tended r c p e q := by
  have hrests : (r.step a e).1.proxy? c = some p →
      ∃ q, (r.step a e).1.proxy? c = some q ∧ Tended r c p e q := fun h =>
    ⟨p, h, .rest e p.stopped⟩
  by_cases habout : e.about? = some c
  · cases e with
    | connect _ | advance _ => cases habout
    | link d y =>
      cases habout
      cases hl : r.link? c with
      | none =>
        apply hrests
        rw [step, onLink, hl]
        exact hp
      | some l =>
        rw [step, onLink_of_link? y hl]
        dsimp only
        split
        · refine ⟨_, ?_, .rest _ true⟩
          rw [disconnect, proxy?_changeProxy (f := fun p => { p with stopped := true }) _ _ _ fun _ => rfl,
            if_pos rfl]
          exact congrArg (Option.map _) hp
        · exact ⟨p, hp, .rest _ p.stopped⟩
    | handle d bind =>
      cases habout
      obtain ⟨-, new, hproxies, -⟩ := handle_frame a bind r c
      apply hrests
      rw [step, proxy?, hproxies, List.find?_append]
      have hfind : r.proxies.find? (·.owner = c) = some p := hp
      rw [hfind]
      rfl
    | table d te =>
      cases habout
      by_cases hdeaf : (∃ key, te = .accept key) ∧ p.listening = false
      · obtain ⟨⟨key, rfl⟩, hdeaf⟩ := hdeaf
        apply hrests
        rw [step, onTable_of_deaf hp hdeaf]
        exact hp
      · have hproxies := (proxies_onTable hp te fun key hkey => by
          by_contra hnot
          exact hdeaf ⟨⟨key, hkey⟩, by simpa using hnot⟩).1
        exact ⟨_, proxy?_of_proxies hp hproxies fun _ => rfl, .work te⟩
    | sweep d =>
      cases habout
      by_cases hdue : p.listening = true ∧ r.nextSweep p ≤ r.now
      · exact ⟨_, proxy?_sweep hp hdue.1 hdue.2, .sweep hdue.1 hdue.2⟩
      · apply hrests
        rw [step, sweep, hp]
        dsimp only
        rw [if_neg]
        · exact hp
        · exact hdue
    | wind d =>
      cases habout
      by_cases hends : p.stopped = true ∧ p.listening = true
      · have hproxies := (proxies_changeProxy_onTable hp (f := fun p => { p with listening := false })
          (fun _ => rfl) rfl .clear fun _ h => by cases h).1
        refine ⟨_, ?_, .wind⟩
        rw [step, wind, hp]
        dsimp only
        rw [if_pos hends]
        exact proxy?_of_proxies hp hproxies fun _ => rfl
      · apply hrests
        rw [step, wind, hp]
        dsimp only
        rw [if_neg hends]
        exact hp
  · obtain ⟨-, -, hsame⟩ := (turn a r e).apart habout
    exact hrests (hsame.trans hp)

theorem proxy_starts (a : Seal.Aead) (e : Event) (hnone : r.proxy? c = none)
    (hq : (r.step a e).1.proxy? c = some q) :
    q.startedAt = r.now ∧ q.sweeps = 0 ∧ q.table.waiting = [] ∧ ∀ ms, e ≠ .advance ms := by
  have hs := shift a r e
  generalize r.step a e = x at hs hq
  have hchanged : ∀ (d : ConnId) (f : DataProxy → DataProxy), (∀ p, (f p).owner = p.owner) →
      x.1.proxies ≠ (r.changeProxy d f).proxies := by
    intro d f hf hproxies
    have hsame : x.1.proxy? c = (r.changeProxy d f).proxy? c := by rw [proxy?, hproxies, proxy?]
    rw [hq, proxy?_changeProxy r d c hf] at hsame
    split at hsame
    · rename_i h
      rw [← h, hnone] at hsame
      cases hsame
    · cases hsame.trans hnone
  cases hs with
  | rests _ _ hproxies => exact absurd hproxies (by simpa [changeProxy] using hchanged c id fun _ => rfl)
  | stops d y _ _ hproxies => exact absurd hproxies (hchanged d _ fun _ => rfl)
  | works d _ te _ p sweeps _ _ hproxies => exact absurd hproxies (hchanged d _ fun _ => rfl)
  | winds d _ p _ _ _ hproxies => exact absurd hproxies (hchanged d _ fun _ => rfl)
  | starts d bind _ p _ _ _ hproxies _ _ hstarted =>
    have hfind : r.proxies.find? (·.owner = c) = none := hnone
    rw [proxy?, hproxies, List.find?_append, hfind, Option.none_or] at hq
    obtain rfl := List.mem_singleton.mp (List.mem_of_find?_eq_some hq)
    exact ⟨hstarted, rfl, rfl, fun _ h => by cases h⟩

/-! ## Between two sweeps -/

/-- Who waits at a proxy came in after it started, and outlasts its last sweep. -/
structure Swept (ttl now : Nat) (p : DataProxy) : Prop where
  started : p.startedAt ≤ now
  past : ∀ k, p.sweeps = k + 1 → sweepTime p.startedAt ttl k ≤ now
  since : ∀ v ∈ p.table.waiting, p.startedAt ≤ v.since
  outlasts : ∀ v ∈ p.table.waiting, ∀ k, p.sweeps = k + 1 →
    sweepTime p.startedAt ttl k ≤ v.since + ttl

variable {ttl now now' : Nat}

theorem Swept.later (h : Swept ttl now p) (hle : now ≤ now') : Swept ttl now' p :=
  ⟨h.started.trans hle, fun k hk => (h.past k hk).trans hle, h.since, h.outlasts⟩

theorem Swept.work (h : Swept ttl now p) {w : Proxy.Surroundings} (hw : w.now = now) (te : TableEvent) :
    Swept ttl now { p with table := (p.table.step w te).table } := by
  have hsince := fun v hv => (Table.waiters_step w p.table te).since (v := v) hv
  refine ⟨h.started, h.past, fun v hv => ?_, fun v hv k hk => ?_⟩
  · rcases hsince v hv with hnow | ⟨u, hu, hu'⟩
    · rw [hnow, hw]
      exact h.started
    · exact hu' ▸ h.since u hu
  · rcases hsince v hv with hnow | ⟨u, hu, hu'⟩
    · rw [hnow, hw]
      exact (h.past k hk).trans (Nat.le_add_right _ _)
    · exact hu' ▸ h.outlasts u hu k hk

theorem Swept.tended (h : Swept r.options.unboundTtl r.now p) (ht : Tended r c p e q) :
    Swept r.options.unboundTtl r.now q := by
  cases ht with
  | rest e stopped => exact ⟨h.started, h.past, h.since, h.outlasts⟩
  | work te => exact h.work rfl te
  | sweep hlistening hdue =>
    refine ⟨h.started, ?_, fun v hv => h.since v (List.mem_filter.mp hv).1, fun v hv k hk => ?_⟩
    · rintro k hk
      cases hk
      exact hdue
    · -- whom this sweep leaves has time left
      cases hk
      have hleft : r.now < v.since + r.options.unboundTtl :=
        of_decide_eq_true (List.mem_filter.mp hv).2
      exact Nat.le_trans hdue (Nat.le_of_lt hleft)
  | wind => exact ⟨h.started, h.past, nofun, nofun⟩

/-- One period later, up to a millisecond. -/
theorem sweepTime_succ (startedAt ttl k : Nat) :
    2 * sweepTime startedAt ttl (k + 1) ≤ 2 * sweepTime startedAt ttl k + max ttl 20 + 1 ∧
      sweepTime startedAt ttl k ≤ sweepTime startedAt ttl (k + 1) := by
  unfold sweepTime
  rw [Nat.succ_mul k]
  omega

section Moments

variable {course : Course (step a) (start o (.startingAt first))} {n k : Nat} {session : UInt32}
  {v : Waiting}

theorem ttl_eq (n : Nat) : (course.state n).options.unboundTtl = o.unboundTtl := by
  rw [options_eq course n]
  unfold Options.normalize
  split <;> rfl

theorem swept : ∀ n p, (course.state n).proxy? c = some p → Swept o.unboundTtl (course.state n).now p := by
  intro n
  induction n with
  | zero => nofun
  | succ n ih =>
    intro q hq
    have hnow : (course.state n).now ≤ (course.state (n + 1)).now := now_le_step a _ _
    cases hp : (course.state n).proxy? c with
    | none =>
      obtain ⟨hstarted, hsweeps, hempty, -⟩ := proxy_starts a (course.happens n) hp hq
      refine ⟨hstarted ▸ hnow, fun k hk => ?_, ?_, ?_⟩
      · rw [hsweeps] at hk
        cases hk
      · rw [hempty]
        nofun
      · rw [hempty]
        nofun
    | some p =>
      obtain ⟨q', hq', htended⟩ := tended a (course.happens n) hp
      obtain rfl : q' = q := Option.some.inj (hq'.symm.trans hq)
      have hp := ih p hp
      rw [← ttl_eq n] at hp ⊢
      exact (hp.tended htended).later hnow

/-- The clock passes no moment at which a proxy that listens is to sweep its table: it goes
on when that has happened. -/
def Punctual (course : Course (step a) (start o (.startingAt first))) : Prop :=
  ∀ n ms, course.happens n = .advance ms → ∀ p ∈ (course.state n).proxies, p.listening = true →
    (course.state n).now + ms ≤ (course.state n).nextSweep p

theorem Punctual.on_time (h : Punctual course) : ∀ n p, (course.state n).proxy? c = some p →
    p.listening = true → (course.state n).now ≤ (course.state n).nextSweep p := by
  intro n
  induction n with
  | zero => nofun
  | succ n ih =>
    intro q hq hlistening
    have hnext : (course.state (n + 1)).nextSweep q = (course.state n).nextSweep q := by
      rw [nextSweep, ttl_eq, ← ttl_eq n]
      rfl
    rw [hnext]
    cases hp : (course.state n).proxy? c with
    | none =>
      obtain ⟨hstarted, hsweeps, -, hclock⟩ := proxy_starts a (course.happens n) hp hq
      have hnow : (course.state (n + 1)).now = (course.state n).now := now_step a _ hclock
      rw [hnow, nextSweep, hstarted, hsweeps]
      exact Nat.le_add_right _ _
    | some p =>
      obtain ⟨q', hq', htended⟩ := tended a (course.happens n) hp
      obtain rfl : q' = q := Option.some.inj (hq'.symm.trans hq)
      by_cases hclock : ∃ ms, course.happens n = .advance ms
      · obtain ⟨ms, hms⟩ := hclock
        have hnow : (course.state (n + 1)).now = (course.state n).now + ms := by
          rw [course.state_succ hms]
          rfl
        rw [hms] at htended
        cases htended with
        | rest _ stopped =>
          rw [hnow]
          exact h n ms hms p (mem_of_proxy? hp).1 hlistening
      · have hnow : (course.state (n + 1)).now = (course.state n).now :=
          now_step a _ fun ms hms => hclock ⟨ms, hms⟩
        rw [hnow]
        generalize course.happens n = e at htended
        cases htended with
        | rest _ stopped => exact ih p hp hlistening
        | work te => exact ih p hp hlistening
        | sweep hlistens _ => exact (ih p hp hlistens).trans (sweepTime_succ _ _ _).2
        | wind => cases hlistening

/-- Nobody waits longer than a time-to-live and a period, up to a millisecond. -/
theorem Punctual.waits_short (h : Punctual course) (hp : (course.state n).proxy? c = some p)
    (hv : v ∈ p.table.waiting) : 2 * ((course.state n).now - v.since) <
      2 * o.unboundTtl + max o.unboundTtl 20 + 2 := by
  have hlistening : p.listening = true := by
    by_contra hdeaf
    have hempty := ((matched course n).fits p (mem_of_proxy? hp).1).empty (by simpa using hdeaf)
    rw [hempty] at hv
    cases hv
  have hswept := swept n p hp
  have htime := h.on_time n p hp hlistening
  rw [nextSweep, ttl_eq n] at htime
  cases hsweeps : p.sweeps with
  | zero =>
    -- the first sweep is due when the proxy starts
    have hsince := hswept.since v hv
    rw [hsweeps, sweepTime, Nat.zero_mul] at htime
    omega
  | succ k =>
    have houtlasts := hswept.outlasts v hv k hsweeps
    have hperiod := (sweepTime_succ p.startedAt o.unboundTtl k).1
    rw [hsweeps] at htime
    omega

/-! ## Whom a sweep drops -/

theorem spared (hsweep : course.happens n = .sweep c) (hp : (course.state n).proxy? c = some p)
    (hv : v ∈ p.table.waiting) (hleft : (course.state n).now < v.since + o.unboundTtl) :
    ∃ q, (course.state (n + 1)).proxy? c = some q ∧ v ∈ q.table.waiting := by
  obtain ⟨q, hq, hcases⟩ := table_step a (course.happens n) hp
  refine ⟨q, hq, ?_⟩
  rw [hsweep] at hcases
  rcases hcases with hsame | ⟨te, ho, -, htable, -⟩
  · exact hsame ▸ hv
  · cases ho
    rw [htable]
    refine List.mem_filter.mpr ⟨hv, ?_⟩
    rw [ttl_eq n]
    exact decide_eq_true hleft

theorem nodup_sessions : ∀ n p, (course.state n).proxy? c = some p →
    (p.table.waiting.map (·.session)).Nodup := by
  intro n
  induction n with
  | zero => nofun
  | succ n ih =>
    intro q hq
    cases hp : (course.state n).proxy? c with
    | none =>
      obtain ⟨-, -, hempty, -⟩ := proxy_starts a (course.happens n) hp hq
      rw [hempty]
      exact List.nodup_nil
    | some p =>
      obtain ⟨q', hq', hcases⟩ := table_step a (course.happens n) hp
      obtain rfl : q' = q := Option.some.inj (hq'.symm.trans hq)
      rcases hcases with hsame | ⟨te, -, -, htable, -⟩
      · exact hsame ▸ ih p hp
      · rw [htable]
        exact (Table.waiters_step _ p.table te).nodup (ih p hp)

/-- Nobody waits under a session at the proxy of a connection. -/
def Vacant (r : Run) (c : ConnId) (session : UInt32) : Prop :=
  ∀ p, r.proxy? c = some p → ∀ v ∈ p.table.waiting, v.session ≠ session

/-- Whom a sweep drops had no time left; it is closed, and its id is nobody's. -/
theorem dropped_by_sweep (hsweep : course.happens n = .sweep c)
    (hp : (course.state n).proxy? c = some p) (hv : v ∈ p.table.waiting)
    (hgone : ∀ q, (course.state (n + 1)).proxy? c = some q → v ∉ q.table.waiting) :
    .table c (.drop v.party.key) ∈ course.effectsAt n ∧ (course.state (n + 1)).Vacant c v.session := by
  obtain ⟨q, hq, hcases⟩ := table_step a (course.happens n) hp
  have hgone := hgone q hq
  rw [Course.effectsAt, hsweep]
  rw [hsweep] at hcases
  rcases hcases with hsame | ⟨te, ho, -, htable, hdrops⟩
  · exact absurd (hsame ▸ hv) hgone
  · cases ho
    have hwaiting : q.table.waiting = p.table.waiting.filter fun u =>
        (course.state n).now < u.since + (course.state n).options.unboundTtl := by
      rw [htable]
      rfl
    have hexpired : v.since + (course.state n).options.unboundTtl ≤ (course.state n).now := by
      by_contra hleft
      rw [hwaiting] at hgone
      exact hgone (List.mem_filter.mpr ⟨hv, decide_eq_true (Nat.lt_of_not_le hleft)⟩)
    refine ⟨hdrops _ (List.mem_append_right _ ?_), fun q' hq' u hu hsession => ?_⟩
    · exact List.mem_map.mpr ⟨v, List.mem_filter.mpr ⟨hv, decide_eq_true hexpired⟩, rfl⟩
    · obtain rfl : q = q' := Option.some.inj (hq.symm.trans hq')
      have hu' : u ∈ p.table.waiting := by
        rw [hwaiting] at hu
        exact (List.mem_filter.mp hu).1
      obtain rfl := List.inj_on_of_nodup_map (nodup_sessions n p hp) hu' hv hsession
      exact hgone hu

/-- Nobody waits under an id until it is announced again. -/
theorem vacant_until (hvacant : (course.state n).Vacant c session) (hnk : n ≤ k)
    (hnone : ∀ j, n ≤ j → j < k → .openDataConn session ∉ queuedAt course c j) :
    (course.state k).Vacant c session := by
  induction hnk with
  | refl => exact hvacant
  | @step k hnk ih =>
    have hbefore := ih fun j hnj hjk => hnone j hnj (Nat.lt_succ_of_lt hjk)
    rintro q hq v hv rfl
    rcases waits_before hq hv with ⟨p, hp, u, hu, -, hsession⟩ | ⟨-, -, -, -, hqueued⟩
    · exact hbefore p hp u hu hsession
    · apply hnone k hnk (Nat.lt_succ_self k)
      rw [hqueued]
      exact List.mem_singleton_self _

/-- A data connection is dropped as stale, and nothing else changes at its proxy. -/
def DropsStale (r : Run) (c : ConnId) (key : Nat) (x : Run × List Effect) : Prop :=
  x.2 = [.table c (.count ⟨.dataConnections, 1⟩), .table c (.count ⟨.staleDataConnections, 1⟩),
    .table c (.drop key)] ∧
  ∃ p, r.proxy? c = some p ∧ x.1.proxy? c =
    some { p with table := { p.table with judging := Table.dismiss key p.table.judging } }

theorem Vacant.drops {key : Nat} (h : r.Vacant c session) (hp : r.proxy? c = some p)
    (hhands : p.table.Hands key session) : r.DropsStale c key (r.onTable c (.look key)) := by
  have hstep : p.table.step (r.around c) (.look key) = _ := Table.look_of_hands hhands (h p hp)
  have hopen : ∀ k, TableEvent.look key = .accept k → p.listening = true := nofun
  have hproxies := (proxies_onTable hp (.look key) hopen).1
  refine ⟨?_, p, hp, ?_⟩
  · rw [onTable_eq hp (.look key) hopen, hstep]
    rfl
  · rw [hstep] at hproxies
    exact proxy?_of_proxies hp hproxies fun _ => rfl

end Moments

/-- Users that wait too long are dropped in time and no others. A sweep leaves everybody whose
time-to-live is not up. As long as the clock passes no moment at which a sweep is due, nobody
still waits after a time-to-live and a half, or a time-to-live and ten milliseconds if that is
more, and one millisecond (the times are doubled, for half a time-to-live may be no whole
number). Whom a sweep drops is closed, and a data connection that presents its id to the proxy
is dropped as stale, until all other ids were drawn and this one is drawn again. -/
theorem sweeps_in_time (course : Course (step a) (start o (.startingAt first))) (c : ConnId) :
    (∀ n p, course.happens n = .sweep c → (course.state n).proxy? c = some p →
      ∀ v ∈ p.table.waiting, (course.state n).now < v.since + o.unboundTtl →
      ∃ q, (course.state (n + 1)).proxy? c = some q ∧ v ∈ q.table.waiting) ∧
    (Punctual course → ∀ n p, (course.state n).proxy? c = some p → ∀ v ∈ p.table.waiting,
      2 * ((course.state n).now - v.since) < 2 * o.unboundTtl + max o.unboundTtl 20 + 2) ∧
    ∀ n p, course.happens n = .sweep c → (course.state n).proxy? c = some p →
      ∀ v ∈ p.table.waiting,
      (∀ q, (course.state (n + 1)).proxy? c = some q → v ∉ q.table.waiting) →
      .table c (.drop v.party.key) ∈ course.effectsAt n ∧
      ∃ m, m < n ∧ queuedAt course c m = [.openDataConn v.session] ∧
        ∀ k, n < k → drawn course k ≤ drawn course m + maxId →
          (course.state k).Vacant c v.session ∧
          ∀ q key, (course.state k).proxy? c = some q → q.table.Hands key v.session →
            course.happens k = .table c (.look key) →
            (course.state k).DropsStale c key (course.state (k + 1), course.effectsAt k) := by
  refine ⟨?_, ?_, ?_⟩
  · intro n p hsweep hp v hv hleft
    exact spared hsweep hp hv hleft
  · intro hpunctual n p hp v hv
    exact hpunctual.waits_short hp hv
  · intro n p hsweep hp v hv hgone
    obtain ⟨hdrop, hvacant⟩ := dropped_by_sweep hsweep hp hv hgone
    obtain ⟨m, user, buffered, hmn, -, -, hqueued⟩ := announced_before n p hp v hv
    refine ⟨hdrop, m, hmn, hqueued, fun k hnk hfew => ?_⟩
    have hthen : (course.state k).Vacant c v.session := by
      refine vacant_until hvacant hnk fun j hnj hjk hagain => ?_
      have hmj : m < j := Nat.lt_of_lt_of_le hmn (Nat.le_of_lt hnj)
      obtain ⟨user', buffered', -, hreg, -⟩ := registered_of_queued hagain
      have hdrawn := drawn_of_registered hreg
      have hle : drawn course (j + 1) ≤ drawn course k := drawn_le hjk
      have honce := announced_once (Nat.le_of_lt hmj) (by omega)
        (hqueued ▸ List.mem_singleton_self _) hagain
      omega
    refine ⟨hthen, fun q key hq hhands hlook => ?_⟩
    rw [Course.effectsAt, Course.state, hlook]
    exact hthen.drops hq hhands

/-- A user waits at a proxy until a sweep drops it, one and a half seconds after it came in; its
data connection comes too late. -/
def waitsInVain : List Event :=
  comesAndAsks 1 ++ [.handle ⟨1⟩ bindsAll, .sweep ⟨1⟩, .table ⟨1⟩ (.accept 5), .advance 500,
    .table ⟨1⟩ (.timeUp 5), .sweep ⟨1⟩, .advance 500, .sweep ⟨1⟩, .advance 500, .sweep ⟨1⟩,
    .table ⟨1⟩ (.accept 6), .table ⟨1⟩ (.receive 6 (.bytes (Session.Handshake.encode 1))),
    .table ⟨1⟩ (.look 6)]

def comesTooLate : Course (step webCipher) (start webOptions (.startingAt 1)) :=
  .of waitsInVain (.advance 0)

theorem punctual_comesTooLate : Punctual comesTooLate := by
  intro n ms hms
  rcases Nat.lt_or_ge n 18 with hlt | hge
  · interval_cases n <;> cases hms <;> decide +kernel
  · have hc : comesTooLate = .of waitsInVain (.advance 0) := rfl
    rw [Course.happens_of_le hc hge] at hms
    cases hms
    rw [(Course.still_of_le hc (fun r => rfl) hge).1]
    decide +kernel

theorem sweeps_in_time_comesTooLate :
    Punctual comesTooLate ∧
    (∃ p v, (comesTooLate.state 12).proxy? ⟨1⟩ = some p ∧ v ∈ p.table.waiting ∧ v.session = 1 ∧
      (∃ q, (comesTooLate.state 13).proxy? ⟨1⟩ = some q ∧ v ∈ q.table.waiting) ∧
      2 * ((comesTooLate.state 12).now - v.since) < 3002) ∧
    .table ⟨1⟩ (.drop 5) ∈ comesTooLate.effectsAt 14 ∧
    (comesTooLate.state 17).DropsStale ⟨1⟩ 6 (comesTooLate.state 18, comesTooLate.effectsAt 17) := by
  obtain ⟨hspared, hshort, hdropped⟩ := sweeps_in_time comesTooLate ⟨1⟩
  let v : Waiting := ⟨⟨5, {}⟩, 1, [], 500⟩
  have hthere : ∀ n, n = 12 ∨ n = 14 →
      ∃ p, (comesTooLate.state n).proxy? ⟨1⟩ = some p ∧ v ∈ p.table.waiting := by
    rintro n (rfl | rfl)
    · exact ⟨((comesTooLate.state 12).proxy? ⟨1⟩).get (by decide +kernel), by decide +kernel,
        by decide +kernel⟩
    · exact ⟨((comesTooLate.state 14).proxy? ⟨1⟩).get (by decide +kernel), by decide +kernel,
        by decide +kernel⟩
  have hgone : ∀ q ∈ (comesTooLate.state 15).proxies, q.table.waiting = [] := by decide +kernel
  obtain ⟨p, hp, hv⟩ := hthere 12 (.inl rfl)
  obtain ⟨p', hp', hv'⟩ := hthere 14 (.inr rfl)
  obtain ⟨hdrop, m, -, -, hlater⟩ := hdropped 14 p' rfl hp' v hv' fun q hq hin => by
    rw [hgone q (mem_of_proxy? hq).1] at hin
    cases hin
  have hdrawn : drawn comesTooLate 17 ≤ 1 := by decide +kernel
  obtain ⟨-, hstale⟩ := hlater 17 (by decide) (hdrawn.trans (Nat.le_add_left 1 _))
  let j : Proxy.Judged := ⟨⟨6, { unread := Session.Handshake.encode 1 }⟩, [], 2000⟩
  have hq : (comesTooLate.state 17).proxy? ⟨1⟩ =
      some (((comesTooLate.state 17).proxy? ⟨1⟩).get (by decide +kernel)) := by decide +kernel
  have hhands := hstale _ 6 hq ⟨j, by decide +kernel, rfl, List.prefix_rfl⟩ rfl
  exact ⟨punctual_comesTooLate, ⟨p, v, hp, hv, rfl, hspared 12 p rfl hp v hv (by decide +kernel),
    hshort punctual_comesTooLate 12 p hp v hv⟩, hdrop, hhands⟩

end ReverseTunnel.Server.Run

import ReverseTunnel.Proofs.Proxy.Faithful
import ReverseTunnel.Proofs.Proxy.Registering
import ReverseTunnel.Proofs.Server.Ownership
import ReverseTunnel.Proofs.Server.Queued

/-!
What a server announces to the owners of its proxies.

A proxy comes to be when a request is granted, and then its connection was told so or is
closed (`Granted`). After that a session is announced in the one step that registers a
user at the table of the proxy, under the id drawn in it; and who waits in a table was
announced, and the announcement accepted.
-/

namespace ReverseTunnel.Server

open Control
open Proxy (Table TableStep TableEffect TableEvent Waiting announced)
open Session (ConnId IdSource)
open Wire (Message)

/-- What an effect brings to a connection that came in at a proxy. -/
def Effect.brings (key : Nat) : Effect → Bytes
  | .table _ e => e.brings key
  | .link _ _ => []
  | .count _ => []

/-- What goes out to a connection that came in at a proxy. -/
def outgoing (fx : List Effect) (key : Nat) : Bytes := fx.flatMap (·.brings key)

theorem outgoing_append (fx fy : List Effect) (key : Nat) :
    outgoing (fx ++ fy) key = outgoing fx key ++ outgoing fy key := List.flatMap_append

namespace Run

variable {r : Run} {c d : ConnId} {e : Event} {x : Run × List Effect} {a : Seal.Aead}

/-! ## The table of a proxy works -/

theorem emit_frame (r : Run) (c : ConnId) (m : Message) :
    (r.emit c m).1.proxies = r.proxies ∧ (r.emit c m).1.ids = r.ids := by
  unfold emit
  split <;> exact ⟨rfl, rfl⟩

theorem announce_frame (r : Run) (c : ConnId) (te : TableEffect) :
    (r.announce c te).1.proxies = r.proxies ∧ (r.announce c te).1.ids = r.ids := by
  unfold announce
  split
  · exact emit_frame r c _
  · exact ⟨rfl, rfl⟩

/-- Announcing changes neither proxies nor ids, and who is dropped is dropped. -/
theorem announceAll_frame (es : List TableEffect) : ∀ r : Run,
    (announceAll c r es).1.proxies = r.proxies ∧ (announceAll c r es).1.ids = r.ids ∧
      ∀ key, .drop key ∈ es → .table c (.drop key) ∈ (announceAll c r es).2 := by
  induction es with
  | nil => exact fun r => ⟨rfl, rfl, nofun⟩
  | cons te rest ih =>
    intro r
    obtain ⟨hproxies, hids⟩ := announce_frame r c te
    obtain ⟨hproxies', hids', hdrops⟩ := ih (r.announce c te).1
    refine ⟨hproxies'.trans hproxies, hids'.trans hids, ?_⟩
    rintro key (_ | ⟨_, hkey⟩)
    · exact List.mem_append_left _ List.mem_cons_self
    · exact List.mem_append_right _ (hdrops key hkey)

theorem outgoing_emit (r : Run) (c : ConnId) (m : Message) (key : Nat) :
    outgoing (r.emit c m).2 key = [] := by
  unfold emit
  split
  · rfl
  · exact List.flatMap_eq_nil_iff.mpr fun x hx => by
      obtain ⟨y, -, rfl⟩ := List.mem_map.mp hx
      rfl

theorem outgoing_announceAll (key : Nat) (es : List TableEffect) : ∀ r : Run,
    outgoing (announceAll c r es).2 key = Proxy.outgoing es key := by
  induction es with
  | nil => exact fun _ => rfl
  | cons te rest ih =>
    intro r
    have hfirst : outgoing (r.announce c te).2 key = te.brings key := by
      cases te with
      | announce session => exact outgoing_emit r c _ key
      | relay _ | drop _ | count _ => exact List.append_nil _
    rw [announceAll, outgoing_append, hfirst, ih]
    rfl

/-- The table of the proxy of a connection has taken a step. -/
structure Works (r : Run) (c : ConnId) (t : TableStep) (x : Run × List Effect) : Prop where
  proxy : (x.1.proxy? c).map (·.table) = some t.table
  ids : x.1.ids = t.ids
  own : x.1.link? c = (r.link? c).map (·.emitAll (announcements (announced t.effects)))
  drops : ∀ key, .drop key ∈ t.effects → .table c (.drop key) ∈ x.2
  brings : ∀ key, outgoing x.2 key = Proxy.outgoing t.effects key

/-- The server after a step of the table of a proxy, with nothing announced yet. -/
def stepped (r : Run) (c : ConnId) (t : TableStep) : Run :=
  { r with ids := t.ids }.changeProxy c fun q => { q with table := t.table }

theorem onTable_eq {p : DataProxy} (hp : r.proxy? c = some p) (te : TableEvent)
    (hopen : ∀ key, te = .accept key → p.listening = true) :
    r.onTable c te = announceAll c (r.stepped c (p.table.step (r.around c) te))
      (p.table.step (r.around c) te).effects := by
  unfold onTable
  rw [hp]
  dsimp only
  split
  · rename_i key hclosed
    rw [hopen key rfl] at hclosed
    cases hclosed
  · rfl

theorem works_onTable {p : DataProxy} (hp : r.proxy? c = some p) (te : TableEvent)
    (hopen : ∀ key, te = .accept key → p.listening = true) :
    Works r c (p.table.step (r.around c) te) (r.onTable c te) := by
  let t := p.table.step (r.around c) te
  have hproxy : (r.stepped c t).proxy? c = some { p with table := t.table } := by
    rw [stepped, proxy?_changeProxy { r with ids := t.ids } c c
      (f := fun q => { q with table := t.table }) fun _ => rfl, if_pos rfl]
    exact congrArg (Option.map _) hp
  obtain ⟨hproxies, hids, hdrops⟩ := announceAll_frame (c := c) t.effects (r.stepped c t)
  rw [onTable_eq hp te hopen]
  refine ⟨?_, hids, (confined_announceAll t.effects (r.stepped c t)).own, hdrops,
    fun key => outgoing_announceAll key t.effects _⟩
  rw [proxy?, hproxies]
  exact congrArg (Option.map (·.table)) hproxy

theorem works_changeProxy {p : DataProxy} (hp : r.proxy? c = some p) {f : DataProxy → DataProxy}
    (howner : ∀ p, (f p).owner = p.owner) (htable : (f p).table = p.table) (te : TableEvent)
    (hte : ∀ key, te ≠ .accept key) :
    Works r c (p.table.step (r.around c) te) ((r.changeProxy c f).onTable c te) := by
  have hp' : (r.changeProxy c f).proxy? c = some (f p) := by
    rw [proxy?_changeProxy r c c howner, if_pos rfl, hp]
    rfl
  have h := works_onTable hp' te fun key hkey => absurd hkey (hte key)
  rw [htable] at h
  exact ⟨h.proxy, h.ids, h.own, h.drops, h.brings⟩

theorem onTable_of_deaf {p : DataProxy} (hp : r.proxy? c = some p) (hdeaf : p.listening = false)
    (key : Nat) : r.onTable c (.accept key) = (r, []) := by
  unfold onTable
  rw [hp]
  dsimp only
  rw [hdeaf]

/-- What happens to the table of a proxy with an event, if something does. -/
inductive Occurs (r : Run) (c : ConnId) : Event → TableEvent → Prop
  | table (te : TableEvent) : Occurs r c (.table c te) te
  | sweep : Occurs r c (.sweep c) (.evict r.options.unboundTtl)
  | wind : Occurs r c (.wind c) .clear

/-- Nothing happens to the proxy of a connection and to what is queued on it. -/
structure Still (r : Run) (c : ConnId) (x : Run × List Effect) : Prop where
  proxy : (x.1.proxy? c).map (·.table) = (r.proxy? c).map (·.table)
  ids : x.1.ids = r.ids
  own : x.1.link? c = r.link? c
  quiet : x.2 = []

theorem still_self (r : Run) (c : ConnId) : Still r c (r, []) := ⟨rfl, rfl, rfl, rfl⟩

/-- What the proxy of a connection announces with an event. -/
def announcedOn (r : Run) (c : ConnId) : Event → List UInt32
  | .table d te =>
    if d = c then
      match r.proxy? c with
      | none => []
      | some p => announced (p.table.step (r.around c) te).effects
    else []
  -- who has waited too long is only dropped
  | _ => []

theorem announcedOn_table {p : DataProxy} (hp : r.proxy? c = some p) (te : TableEvent) :
    r.announcedOn c (.table c te) = announced (p.table.step (r.around c) te).effects := by
  simp only [announcedOn, if_pos, hp]

theorem announcedOn_of_none (hp : r.proxy? c = none) (e : Event) : r.announcedOn c e = [] := by
  cases e with
  | table d te =>
    simp only [announcedOn, hp]
    split <;> rfl
  | _ => rfl

/-- An event at the proxy of a connection is a step of its table, or nothing. -/
theorem works_or_still (a : Seal.Aead) (r : Run) (he : e.ofProxy? = some c) :
    (∃ p te, r.proxy? c = some p ∧ Occurs r c e te ∧
        Works r c (p.table.step (r.around c) te) (r.step a e)) ∨
      Still r c (r.step a e) ∧ r.announcedOn c e = [] := by
  cases hp : r.proxy? c with
  | none =>
    refine .inr ⟨?_, announcedOn_of_none hp e⟩
    cases e with
    | table d te | sweep d | wind d =>
      cases he
      simp only [step, onTable, sweep, wind, hp]
      exact still_self r c
    | _ => cases he
  | some p =>
    cases e with
    | table d te =>
      cases he
      by_cases hdeaf : (∃ key, te = .accept key) ∧ p.listening = false
      · obtain ⟨⟨key, rfl⟩, hdeaf⟩ := hdeaf
        rw [step, onTable_of_deaf hp hdeaf, announcedOn_table hp]
        exact .inr ⟨still_self r c, rfl⟩
      · refine .inl ⟨p, te, rfl, .table te, works_onTable hp te fun key hkey => ?_⟩
        by_contra hnot
        exact hdeaf ⟨⟨key, hkey⟩, by simpa using hnot⟩
    | sweep d =>
      cases he
      simp only [step, sweep, hp]
      split
      · have h := works_changeProxy hp (f := fun p => { p with sweeps := p.sweeps + 1 })
          (fun _ => rfl) rfl (.evict r.options.unboundTtl) nofun
        exact .inl ⟨p, _, rfl, .sweep, h⟩
      · exact .inr ⟨still_self r c, rfl⟩
    | wind d =>
      cases he
      simp only [step, wind, hp]
      split
      · have h := works_changeProxy hp (f := fun p => { p with listening := false })
          (fun _ => rfl) rfl .clear nofun
        refine .inl ⟨p, _, rfl, .wind, h.proxy, h.ids, h.own, fun key hkey =>
          List.mem_append_left _ (h.drops key hkey), fun key => ?_⟩
        rw [outgoing_append, h.brings key]
        exact List.append_nil _
      · exact .inr ⟨still_self r c, rfl⟩
    | _ => cases he

/-! ## A user is registered -/

/-- An event at the proxy of a connection takes a connection that came in for a user. -/
def TakesUser (r : Run) (e : Event) (c : ConnId) (user : Party) (buffered : Bytes) : Prop :=
  ∃ p te, r.proxy? c = some p ∧ e = .table c te ∧ p.table.ShowsUser r.now te user buffered

/-- What comes of a user: it is announced and waits, or it is not, is dropped, and is not
in the table of the proxy. -/
structure Registered (r : Run) (c : ConnId) (user : Party) (buffered : Bytes) (x : Run × List Effect) :
    Prop where
  draws : x.1.ids = r.ids.draw.2
  outcome : ∃ p p', r.proxy? c = some p ∧ x.1.proxy? c = some p' ∧ ¬p'.table.Judges user.key ∧
    ((r.around c).ownerAccepts = true ∧ r.queuedOn x.1 c = [.openDataConn r.ids.next] ∧
        p'.table.waiting = Table.others r.ids.next p.table.waiting ++
          [⟨user, r.ids.next, buffered, r.now⟩] ∨
      r.queuedOn x.1 c = [] ∧ .table c (.drop user.key) ∈ x.2 ∧
        p'.table.waiting = Table.others r.ids.next p.table.waiting ∧
        p'.table.paired = p.table.paired)

/-- An announcement is queued exactly if the owner accepts it. -/
theorem Works.queuedOn {t : TableStep} (h : Works r c t x) {session : UInt32}
    (ht : announced t.effects = [session]) :
    r.queuedOn x.1 c = if (r.around c).ownerAccepts then [.openDataConn session] else [] := by
  have hown := h.own
  rw [ht] at hown
  cases hl : r.link? c with
  | none =>
    rw [hl] at hown
    have haccepts : (r.around c).ownerAccepts = false := by simp [around, hl]
    rw [queuedOn_of_same (hown.trans hl.symm), haccepts]
    rfl
  | some l =>
    rw [hl] at hown
    have hown' : x.1.link? c = some (l.emitted (.openDataConn session)) := hown
    have haccepts : (r.around c).ownerAccepts = l.accepts := by simp [around, hl]
    rw [haccepts]
    cases hla : l.accepts with
    | true =>
      apply queuedOn_of_append
      rw [outbox_of_link? hown', outbox_of_link? hl, Link.emitted_of_accepts hla]
      rfl
    | false =>
      apply queuedOn_of_length
      rw [outbox_of_link? hown', outbox_of_link? hl, Link.emitted_of_refuses hla]
      exact Nat.le_refl _

theorem Works.queuedOn_of_silent {t : TableStep} (h : Works r c t x) (ht : announced t.effects = []) :
    r.queuedOn x.1 c = [] := by
  apply queuedOn_of_same
  rw [h.own, ht]
  exact Option.map_id_apply

theorem Works.registered {p : DataProxy} {user : Party} {buffered : Bytes} (hp : r.proxy? c = some p)
    (h : Works r c ({ p.table with judging := Table.dismiss user.key p.table.judging }.park
      (r.around c) user buffered) x) : Registered r c user buffered x := by
  refine ⟨h.ids.trans (Table.ids_park _ _ _ _), ?_⟩
  have hqueued := h.queuedOn (Table.announced_park _ _ _ _)
  obtain ⟨p', hp', htable⟩ := Option.map_eq_some_iff.mp h.proxy
  refine ⟨p, p', hp, hp', ?_, ?_⟩
  · rintro ⟨j, hj, hkey⟩
    rw [htable, Table.judging_park] at hj
    have := (List.mem_filter.mp hj).2
    simp [hkey] at this
  · rw [htable]
    cases haccepts : (r.around c).ownerAccepts with
    | true =>
      rw [haccepts, if_pos rfl] at hqueued
      exact .inl ⟨rfl, hqueued, Table.waiting_park_of_accepts _ _ _ _ haccepts⟩
    | false =>
      rw [haccepts, if_neg Bool.false_ne_true] at hqueued
      obtain ⟨hdrop, hafter⟩ := Table.park_of_refuses (r.around c)
        { p.table with judging := Table.dismiss user.key p.table.judging } user buffered haccepts
      refine .inr ⟨hqueued, h.drops _ hdrop, ?_, ?_⟩
      · rw [hafter]
        rfl
      · rw [hafter]

theorem TakesUser.registered {user : Party} {buffered : Bytes} (h : r.TakesUser e c user buffered)
    (a : Seal.Aead) : Registered r c user buffered (r.step a e) := by
  obtain ⟨p, te, hp, rfl, hshows⟩ := h
  have hworks := works_onTable hp te fun key hkey => by subst hkey; cases hshows
  rw [Table.ShowsUser.step_eq (w := r.around c) hshows] at hworks
  exact hworks.registered hp

/-- An event at the proxy of a connection registers a user, or announces nothing and leaves
nobody waiting who has not waited before. -/
theorem proxy_cases (a : Seal.Aead) (r : Run) (he : e.ofProxy? = some c) :
    (∃ user buffered, r.TakesUser e c user buffered ∧
        Registered r c user buffered (r.step a e)) ∨
      ((r.step a e).1.ids = r.ids ∧ r.queuedOn (r.step a e).1 c = [] ∧
        ∀ p', (r.step a e).1.proxy? c = some p' → ∃ p, r.proxy? c = some p ∧
          ∀ v ∈ p'.table.waiting, p.table.Waits v.party.key v.session) := by
  rcases works_or_still a r he with ⟨p, te, hp, ho, hworks⟩ | ⟨hstill, -⟩
  · rcases Table.step_cases p.table (r.around c) te with ⟨user, buffered, hshows, hstep⟩ | hsilent
    · rw [hstep] at hworks
      left
      refine ⟨user, buffered, ?_, hworks.registered hp⟩
      cases ho with
      | table te => exact ⟨p, te, hp, rfl, hshows⟩
      | sweep | wind => cases hshows
    · right
      have hannounced := Proxy.announced_of_none hsilent.quiet
      refine ⟨hworks.ids.trans hsilent.ids, hworks.queuedOn_of_silent hannounced, ?_⟩
      intro p' hp'
      have htable : p'.table = (p.table.step (r.around c) te).table := by
        have hproxy := hworks.proxy
        rw [hp'] at hproxy
        exact Option.some.inj hproxy
      refine ⟨p, hp, ?_⟩
      rw [htable]
      exact hsilent.waiting
  · right
    refine ⟨hstill.ids, queuedOn_of_same hstill.own, ?_⟩
    intro p' hp'
    have hproxy := hstill.proxy
    rw [hp'] at hproxy
    obtain ⟨p, hp, hsame⟩ := Option.map_eq_some_iff.mp hproxy.symm
    have htable : p'.table = p.table := hsame.symm
    refine ⟨p, hp, ?_⟩
    rw [htable]
    exact fun v hv => Table.waits_of_mem hv

/-! ## A proxy comes to be -/

/-- What a connection is told when its request is granted. -/
def Granted (m : Message) : Prop := ∃ text delay port, m = .openDataPortAck true text delay port

/-- A connection that does not accept anything any more. -/
def Shut (r : Run) (c : ConnId) : Prop := ∃ l, r.link? c = some l ∧ l.closed = true

theorem perform_frame (r : Run) (c : ConnId) (y : Action) :
    (r.perform c y).1.ids = r.ids ∧ ∃ new, (r.perform c y).1.proxies = r.proxies ++ new ∧
      ∀ p ∈ new, p.table.waiting = [] ∧ ∃ q, y = .listen q := by
  cases y with
  | emit m =>
    obtain ⟨hproxies, hids⟩ := emit_frame r c m
    exact ⟨hids, [], by rw [perform, hproxies, List.append_nil], nofun⟩
  | close =>
    unfold perform
    dsimp only
    split <;> exact ⟨rfl, [], (List.append_nil _).symm, nofun⟩
  | count n => exact ⟨rfl, [], (List.append_nil _).symm, nofun⟩
  | listen q =>
    refine ⟨rfl, _, rfl, fun p hp => ?_⟩
    rw [List.mem_singleton.mp hp]
    exact ⟨rfl, q, rfl⟩

theorem performAll_frame (ys : List Action) : ∀ r : Run,
    (performAll c r ys).1.ids = r.ids ∧ ∃ new, (performAll c r ys).1.proxies = r.proxies ++ new ∧
      ∀ p ∈ new, p.table.waiting = [] ∧ ∃ q, .listen q ∈ ys := by
  induction ys with
  | nil => exact fun r => ⟨rfl, [], (List.append_nil _).symm, nofun⟩
  | cons y rest ih =>
    intro r
    obtain ⟨hids, new, hproxies, hnew⟩ := perform_frame r c y
    obtain ⟨hids', new', hproxies', hnew'⟩ := ih (r.perform c y).1
    refine ⟨hids'.trans hids, new ++ new', ?_, fun p hp => ?_⟩
    · rw [performAll, hproxies', hproxies, List.append_assoc]
    · rcases List.mem_append.mp hp with hp | hp
      · obtain ⟨hempty, q, rfl⟩ := hnew p hp
        exact ⟨hempty, q, List.mem_cons_self⟩
      · obtain ⟨hempty, q, hq⟩ := hnew' p hp
        exact ⟨hempty, q, List.mem_cons_of_mem _ hq⟩

theorem handle_frame (a : Seal.Aead) (bind : Binder) (r : Run) (c : ConnId) :
    (r.handle a bind c).1.ids = r.ids ∧ ∃ new, (r.handle a bind c).1.proxies = r.proxies ++ new ∧
      ∀ p ∈ new, p.table.waiting = [] ∧
        ((r.handle a bind c).1.Shut c ∨ ∃ m ∈ r.queuedOn (r.handle a bind c).1 c, Granted m) := by
  cases htaken : (r.link? c).bind Link.take? with
  | none =>
    rw [handle, htaken]
    exact ⟨rfl, [], (List.append_nil _).symm, fun p hp => by cases hp⟩
  | some taken =>
    obtain ⟨m, l'⟩ := taken
    obtain ⟨l, hl, htake⟩ := Option.bind_eq_some_iff.mp htaken
    have hown := (confined_handle a bind hl htake).own
    have hstep : r.handle a bind c = performAll c
        { r.setLink c l' with registry := (react r.options a bind r.now r.registry c m).1 }
        (react r.options a bind r.now r.registry c m).2 := by
      rw [handle, htaken]
    obtain ⟨hids, new, hproxies, hnew⟩ := performAll_frame (c := c)
      (react r.options a bind r.now r.registry c m).2
      { r.setLink c l' with registry := (react r.options a bind r.now r.registry c m).1 }
    rw [← hstep] at hids hproxies
    refine ⟨hids, new, hproxies, fun p hp => ?_⟩
    obtain ⟨hempty, q, hq⟩ := hnew p hp
    refine ⟨hempty, ?_⟩
    -- the grant is accepted and queued, or the link is closed
    rw [(react_of_listen hq).2, hl] at hown
    have hown' : (r.handle a bind c).1.link? c = some (l'.emitted (granted r.options q.bound.port)) :=
      hown
    obtain ⟨-, hl'⟩ := Link.take?_eq_some htake
    rcases Link.emitted_cases l' (granted r.options q.bound.port) with ⟨-, hm⟩ | hm
    · refine .inr ⟨granted r.options q.bound.port, ?_, _, _, _, rfl⟩
      have hqueued : r.queuedOn (r.handle a bind c).1 c = [granted r.options q.bound.port] := by
        apply queuedOn_of_append
        rw [outbox_of_link? hown', outbox_of_link? hl, hm, hl']
      rw [hqueued]
      exact List.mem_singleton_self _
    · exact .inl ⟨_, hown', by rw [hm]; rfl⟩

theorem ids_of_none (a : Seal.Aead) (r : Run) (he : e.ofProxy? = none) :
    (r.step a e).1.ids = r.ids := by
  cases e with
  | connect peer => rfl
  | advance ms => rfl
  | handle d bind => exact (handle_frame a bind r d).1
  | link d y =>
    rw [step, onLink]
    split
    · rfl
    · dsimp only
      split <;> rfl
  | _ => cases he

theorem table_onLink (r : Run) (c : ConnId) (y : LinkEvent) :
    ((r.onLink c y).1.proxy? c).map (·.table) = (r.proxy? c).map (·.table) := by
  cases hl : r.link? c with
  | none => rw [onLink, hl]
  | some l =>
    rw [onLink_of_link? y hl]
    dsimp only
    split
    · rw [disconnect, proxy?_changeProxy _ c c (f := fun p => { p with stopped := true })
        fun _ => rfl, if_pos rfl, Option.map_map]
      rfl
    · rfl

/-- An event that is not at the proxy of a connection leaves its table as it is, or the
proxy comes to be with it, with nobody in its table, and its connection is told so or
shut. -/
theorem other_cases (a : Seal.Aead) (r : Run) (he : e.ofProxy? ≠ some c) :
    ((r.step a e).1.proxy? c).map (·.table) = (r.proxy? c).map (·.table) ∨
      r.proxy? c = none ∧ ∀ p', (r.step a e).1.proxy? c = some p' → p'.table.waiting = [] ∧
        ((r.step a e).1.Shut c ∨ ∃ m ∈ r.queuedOn (r.step a e).1 c, Granted m) := by
  by_cases habout : e.about? = some c
  · cases e with
    | link d y =>
      cases habout
      exact .inl (table_onLink r c y)
    | handle d bind =>
      cases habout
      obtain ⟨-, new, hproxies, hnew⟩ := handle_frame a bind r c
      have hfind : (r.handle a bind c).1.proxy? c = (r.proxy? c).or (new.find? (·.owner = c)) := by
        rw [proxy?, hproxies, List.find?_append]
        rfl
      cases hp : r.proxy? c with
      | some p =>
        left
        rw [step, hfind, hp]
        rfl
      | none =>
        right
        refine ⟨rfl, fun p' hp' => ?_⟩
        rw [step, hfind, hp] at hp'
        exact hnew p' (List.mem_of_find?_eq_some hp')
    | table d te | sweep d | wind d => exact absurd habout he
    | connect _ | advance _ => cases habout
  · obtain ⟨-, -, hsame⟩ := (turn a r e).apart habout
    exact .inl (congrArg (Option.map (·.table)) hsame)

theorem not_announced (a : Seal.Aead) (r : Run) (he : e.ofProxy? ≠ some c) (session : UInt32) :
    .openDataConn session ∉ r.queuedOn (r.step a e).1 c := by
  intro hm
  have ht := turn a r e
  by_cases habout : e.about? = some c
  · cases e with
    | link d y =>
      rw [queuedOn_link ht] at hm
      cases hm
    | handle d bind =>
      obtain ⟨-, l, m, l', -, -, hemit⟩ := queuedOn_handle ht hm
      exact not_announced_react r.options a bind r.now r.registry c m session hemit
    | table d te | sweep d | wind d => exact absurd habout he
    | connect _ | advance _ => cases habout
  · rw [queuedOn_elsewhere ht habout] at hm
    cases hm

theorem Shut.refuses (h : r.Shut c) : (r.around c).ownerAccepts = false := by
  obtain ⟨l, hl, hclosed⟩ := h
  simp [around, hl, Link.accepts, hclosed]

theorem Shut.turn (h : r.Shut c) (ht : Turn a r e x) : x.1.Shut c := by
  refine ht.holds (fun l y hclosed => Link.closed_move hclosed (Link.move l y)) ?_
    (fun l l' haside hclosed => haside.closed hclosed) h
  intro l l' m htake hclosed
  obtain ⟨-, hl'⟩ := Link.take?_eq_some htake
  rw [hl']
  exact hclosed

end Run

end ReverseTunnel.Server

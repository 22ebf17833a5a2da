import ReverseTunnel.Proofs.Control.Link
import ReverseTunnel.Proofs.Proxy.Issuing
import ReverseTunnel.Proofs.Server.Provision
import ReverseTunnel.Server.Run

/-!
The control connections of a server, and how much of it a step can change.

Whatever happens on a connection, or to the proxy that it owns, is confined to it: no
other link and no other proxy changes (`Run.Confined`). `Run.Turn` lists what an event
can do in these terms, and `Run.turn` says that every event does one of these.
-/

namespace ReverseTunnel.Server

open Control
open Proxy (TableEffect TableEvent announced)
open Session (ConnId)
open Wire (Message)

/-! ## What actions do to a link -/

/-- What an action does to the link of its connection. -/
def Action.onLink (l : Link) : Action → Link
  | .emit m => l.emitted m
  | .close => l.close
  | .count _ => l
  | .listen _ => l

/-- What several actions in order do to the link of their connection. -/
def Action.allOnLink (l : Link) : List Action → Link
  | [] => l
  | x :: rest => allOnLink (x.onLink l) rest

theorem Action.aside_onLink (l : Link) (x : Action) : l.Aside (x.onLink l) := by
  cases x with
  | emit m => exact Link.aside_emitted l m
  | close => exact Link.aside_close l
  | count _ | listen _ => exact Link.Aside.refl l

theorem Action.aside_allOnLink (xs : List Action) : ∀ l : Link, l.Aside (allOnLink l xs) := by
  induction xs with
  | nil => exact Link.Aside.refl
  | cons x rest ih => exact fun l => (aside_onLink l x).trans (ih _)

namespace Run

/-! ## Links and proxies by their connection -/

theorem link?_setLink (r : Run) (c d : ConnId) (l : Link) :
    (r.setLink c l).link? d = if d = c then (r.link? c).map (fun _ => l) else r.link? d := by
  unfold setLink link?
  rw [List.find?_map]
  have hsame : ((fun k : Connection => decide (k.id = d)) ∘
      fun k => if k.id = c then { k with link := l } else k) = fun k => decide (k.id = d) := by
    funext k
    simp only [Function.comp_apply]
    split <;> rfl
  rw [hsame, Option.map_map]
  split
  · rename_i h
    subst h
    cases hfind : r.connections.find? (fun k => decide (k.id = d)) with
    | none => rfl
    | some k =>
      have hk : k.id = d := by simpa using List.find?_some hfind
      simp [hk]
  · rename_i h
    cases hfind : r.connections.find? (fun k => decide (k.id = d)) with
    | none => rfl
    | some k =>
      have hk : k.id = d := by simpa using List.find?_some hfind
      simp [hk, h]

theorem link?_connect (r : Run) (peer : Option String) (d : ConnId) :
    (r.connect peer).link? d = (r.link? d).or (if d = ⟨r.nextConn⟩ then some {} else none) := by
  unfold connect link?
  rw [List.find?_append]
  cases r.connections.find? (fun k => decide (k.id = d)) with
  | some k => rfl
  | none =>
    by_cases h : d = ⟨r.nextConn⟩
    · simp [h]
    · simp [h, Ne.symm h]

theorem proxy?_changeProxy (r : Run) (c d : ConnId) {f : DataProxy → DataProxy}
    (hf : ∀ p, (f p).owner = p.owner) :
    (r.changeProxy c f).proxy? d = if d = c then (r.proxy? c).map f else r.proxy? d := by
  unfold changeProxy proxy?
  rw [List.find?_map]
  have hsame : ((fun p : DataProxy => decide (p.owner = d)) ∘
      fun p => if p.owner = c then f p else p) = fun p => decide (p.owner = d) := by
    funext p
    simp only [Function.comp_apply]
    split
    · rw [hf]
    · rfl
  rw [hsame]
  split
  · rename_i h
    subst h
    cases hfind : r.proxies.find? (fun p => decide (p.owner = d)) with
    | none => rfl
    | some p =>
      have hp : p.owner = d := by simpa using List.find?_some hfind
      simp [hp]
  · rename_i h
    cases hfind : r.proxies.find? (fun p => decide (p.owner = d)) with
    | none => rfl
    | some p =>
      have hp : p.owner = d := by simpa using List.find?_some hfind
      simp [hp, h]

/-! ## What is confined to a connection -/

/-- The server changes on one connection only: its link as told, and what is
remembered as told. What is done to the world around puts nothing on a transport. -/
structure Confined (c : ConnId) (f : Link → Link) (registry : Registry) (r : Run)
    (x : Run × List Effect) : Prop where
  options : x.1.options = r.options
  registry : x.1.registry = registry
  own : x.1.link? c = (r.link? c).map f
  others : ∀ d, d ≠ c → x.1.link? d = r.link? d
  proxies : ∀ d, d ≠ c → x.1.proxy? d = r.proxy? d
  quiet : ∀ d y, Effect.link d y ∈ x.2 → ∃ n, y = .count n

variable {r r' r'' : Run} {c : ConnId} {f g : Link → Link} {registry registry' : Registry}
  {fx fx' : List Effect}

theorem Confined.refl (r : Run) (c : ConnId) : Confined c id r.registry r (r, []) where
  options := rfl
  registry := rfl
  own := (Option.map_id_apply).symm
  others _ _ := rfl
  proxies _ _ := rfl
  quiet _ _ h := by cases h

theorem Confined.trans (h : Confined c f registry r (r', fx))
    (h' : Confined c g registry' r' (r'', fx')) :
    Confined c (fun l => g (f l)) registry' r (r'', fx ++ fx') where
  options := h'.options.trans h.options
  registry := h'.registry
  own := by rw [h'.own, h.own, Option.map_map]; rfl
  others d hd := (h'.others d hd).trans (h.others d hd)
  proxies d hd := (h'.proxies d hd).trans (h.proxies d hd)
  quiet d y hy := (List.mem_append.mp hy).elim (h.quiet d y) (h'.quiet d y)

theorem confined_setLink (r : Run) (c : ConnId) (l : Link) :
    Confined c (fun _ => l) r.registry r (r.setLink c l, []) where
  options := rfl
  registry := rfl
  own := by rw [link?_setLink, if_pos rfl]
  others d hd := by rw [link?_setLink, if_neg hd]
  proxies _ _ := rfl
  quiet _ _ h := by cases h

theorem confined_changeProxy (r : Run) (c : ConnId) {f : DataProxy → DataProxy}
    (hf : ∀ p, (f p).owner = p.owner) : Confined c id r.registry r (r.changeProxy c f, []) where
  options := rfl
  registry := rfl
  own := (Option.map_id_apply).symm
  others _ _ := rfl
  proxies d hd := by rw [proxy?_changeProxy r c d hf, if_neg hd]
  quiet _ _ h := by cases h

theorem confined_emit (r : Run) (c : ConnId) (m : Message) :
    Confined c (·.emitted m) r.registry r (r.emit c m) := by
  unfold emit
  split
  · rename_i hl
    exact { Confined.refl r c with own := by rw [hl]; rfl }
  · rename_i l hl
    refine { confined_setLink r c (l.emitted m) with own := ?_, quiet := ?_ }
    · show (r.setLink c (l.emitted m)).link? c = _
      rw [link?_setLink, if_pos rfl, hl]
      rfl
    · intro d y hy
      simp only [Link.emit] at hy
      split at hy
      · cases hy
      · split at hy
        · cases hy
        · simp only [List.map_cons, List.map_nil, List.mem_singleton, Effect.link.injEq] at hy
          exact ⟨_, hy.2⟩

theorem confined_perform (r : Run) (x : Action) (hx : ∀ p, x = .listen p → p.owner = c) :
    Confined c (x.onLink ·) r.registry r (r.perform c x) := by
  cases x with
  | emit m => exact confined_emit r c m
  | close =>
    unfold perform
    cases hl : r.link? c with
    | none => exact { Confined.refl r c with own := by simp [hl] }
    | some l =>
      refine { confined_setLink r c l.close with own := ?_ }
      show (r.setLink c l.close).link? c = _
      rw [link?_setLink, if_pos rfl, hl]
      rfl
  | count n =>
    refine { Confined.refl r c with quiet := ?_ }
    intro d y hy
    simp [perform] at hy
  | listen p =>
    refine { Confined.refl r c with proxies := ?_, quiet := ?_ }
    · intro d hd
      have hp : p.owner ≠ d := fun h => hd (h ▸ hx p rfl)
      show List.find? _ (r.proxies ++ _) = List.find? _ r.proxies
      rw [List.find?_append]
      simp [hp]
    · intro d y hy
      simp [perform] at hy

theorem confined_performAll (xs : List Action) : ∀ r : Run,
    (∀ p, .listen p ∈ xs → p.owner = c) →
    Confined c (Action.allOnLink · xs) r.registry r (performAll c r xs) := by
  induction xs with
  | nil => exact fun r _ => Confined.refl r c
  | cons x rest ih =>
    intro r hxs
    have hx := confined_perform r x fun p hp => hxs p (hp ▸ List.mem_cons_self)
    have hrest := ih (r.perform c x).1 fun p hp => hxs p (List.mem_cons_of_mem _ hp)
    rw [hx.registry] at hrest
    exact hx.trans hrest

/-! ## What is announced on a connection -/

/-- The messages that announce sessions. -/
def announcements (sessions : List UInt32) : List Message := sessions.map .openDataConn

theorem confined_announce (r : Run) (c : ConnId) (e : TableEffect) :
    Confined c (·.emitAll (announcements (announced [e]))) r.registry r (r.announce c e) := by
  cases e with
  | announce session => exact confined_emit r c (.openDataConn session)
  | relay _ | drop _ | count _ =>
    refine { Confined.refl r c with quiet := ?_ }
    intro d y hy
    simp [announce] at hy

theorem confined_announceAll (es : List TableEffect) : ∀ r : Run,
    Confined c (·.emitAll (announcements (announced es))) r.registry r (announceAll c r es) := by
  induction es with
  | nil => exact fun r => Confined.refl r c
  | cons e rest ih =>
    intro r
    have he := confined_announce r c e
    have hrest := ih (r.announce c e).1
    rw [he.registry] at hrest
    have hboth := he.trans hrest
    cases e with
    | announce _ | relay _ | drop _ | count _ => exact hboth

theorem confined_onTable (r : Run) (c : ConnId) (e : TableEvent) :
    ∃ sessions, Confined c (·.emitAll (announcements sessions)) r.registry r (r.onTable c e) := by
  have hrests : ∃ sessions,
      Confined c (·.emitAll (announcements sessions)) r.registry r (r, []) :=
    ⟨[], Confined.refl r c⟩
  unfold onTable
  split
  · exact hrests
  · rename_i p hp
    split
    · exact hrests
    · rename_i e _ _ _
      -- the table changes first, then what it announces is emitted
      refine ⟨announced (p.table.step (r.around c) e).effects, ?_⟩
      have htable := confined_changeProxy { r with ids := (p.table.step (r.around c) e).ids } c
        (f := fun q => { q with table := (p.table.step (r.around c) e).table }) fun _ => rfl
      exact { htable.trans (confined_announceAll _ _) with }

theorem confined_sweep (r : Run) (c : ConnId) :
    ∃ sessions, Confined c (·.emitAll (announcements sessions)) r.registry r (r.sweep c) := by
  unfold sweep
  split
  · exact ⟨[], Confined.refl r c⟩
  · split
    · have hcount := confined_changeProxy r c (f := fun q => { q with sweeps := q.sweeps + 1 })
        fun _ => rfl
      obtain ⟨sessions, htable⟩ := confined_onTable
        (r.changeProxy c fun q => { q with sweeps := q.sweeps + 1 }) c (.evict r.options.unboundTtl)
      exact ⟨sessions, hcount.trans htable⟩
    · exact ⟨[], Confined.refl r c⟩

theorem confined_wind (r : Run) (c : ConnId) :
    ∃ sessions, Confined c (·.emitAll (announcements sessions)) r.registry r (r.wind c) := by
  unfold wind
  split
  · exact ⟨[], Confined.refl r c⟩
  · split
    · have hstop := confined_changeProxy r c (f := fun q => { q with listening := false })
        fun _ => rfl
      obtain ⟨sessions, htable⟩ := confined_onTable
        (r.changeProxy c fun q => { q with listening := false }) c .clear
      refine ⟨sessions, { hstop.trans htable with quiet := ?_ }⟩
      intro d y hy
      rcases List.mem_append.mp hy with hy | hy
      · exact htable.quiet d y hy
      · simp at hy
    · exact ⟨[], Confined.refl r c⟩

end Run

/-! ## What a step can do -/

/-- The connection on which something happens, or whose proxy it happens to. -/
def Event.about? : Event → Option ConnId
  | .connect _ => none
  | .link c _ => some c
  | .handle c _ => some c
  | .table c _ => some c
  | .sweep c => some c
  | .wind c => some c
  | .advance _ => none

/-- The connection to whose proxy something happens. -/
def Event.ofProxy? : Event → Option ConnId
  | .table c _ => some c
  | .sweep c => some c
  | .wind c => some c
  | _ => none

theorem Event.about?_of_ofProxy? {e : Event} {c : ConnId} (h : e.ofProxy? = some c) :
    e.about? = some c := by
  cases e with
  | table _ _ | sweep _ | wind _ => exact h
  | _ => cases h

/-- A proxy is listened for only after the request for it was granted, and it is owned by
the connection that asked for it. -/
theorem react_of_listen {o : Options} {a : Seal.Aead} {bind : Binder} {now : Nat} {reg : Registry}
    {c : ConnId} {m : Message} {p : Registration}
    (h : .listen p ∈ (react o a bind now reg c m).2) :
    p.owner = c ∧ (react o a bind now reg c m).2 = [.emit (granted o p.bound.port), .listen p] := by
  cases m with
  | auth token =>
    simp only [react, onAuth] at h
    split at h
    · simp at h
    · split at h <;> simp at h
  | heartbeat timestamp =>
    simp only [react, onHeartbeat] at h
    split at h <;> simp at h
  | openDataPort sealedRequest =>
    simp only [react, onOpenDataPort] at h ⊢
    split at h
    · rename_i q hq
      have hpq : p = q := by simpa using h
      rw [hpq]
      exact ⟨provision_owner hq, rfl⟩
    · simp at h
  | _ => simp [react] at h

namespace Run

/-- What is remembered after a link went from one state to another: the connection is
forgotten once it has finished. -/
def remembered (registry : Registry) (c : ConnId) (l l' : Link) : Registry :=
  if l.stage ≠ .finished ∧ l'.stage = .finished then registry.forget c else registry

/-- Nothing happens on a link: it is not there, or nothing waits on it. -/
def Idle (r : Run) : Event → Prop
  | .link c _ => r.link? c = none
  | .handle c _ => (r.link? c).bind Link.take? = none
  | _ => True

/-- What an event can do to a server. -/
inductive Turn (a : Seal.Aead) (r : Run) : Event → Run × List Effect → Prop
  | connects (peer : Option String) : Turn a r (.connect peer) (r.connect peer, [])
  | rests (e : Event) (x : Run × List Effect) (hidle : r.Idle e)
      (h : ∀ c, Confined c id r.registry r x) : Turn a r e x
  | moves (c : ConnId) (e : LinkEvent) (l : Link) (r' : Run) (hl : r.link? c = some l)
      (h : Confined c (fun _ => (l.step e).1) (remembered r.registry c l (l.step e).1) r (r', [])) :
      Turn a r (.link c e) (r', (l.step e).2.map (.link c))
  | handles (c : ConnId) (bind : Binder) (l l' : Link) (m : Message) (x : Run × List Effect)
      (hl : r.link? c = some l) (ht : l.take? = some (m, l'))
      (h : Confined c (fun _ => Action.allOnLink l' (react r.options a bind r.now r.registry c m).2)
        (react r.options a bind r.now r.registry c m).1 r x) :
      Turn a r (.handle c bind) x
  | announces (e : Event) (c : ConnId) (sessions : List UInt32) (x : Run × List Effect)
      (he : e.ofProxy? = some c)
      (h : Confined c (·.emitAll (announcements sessions)) r.registry r x) : Turn a r e x

theorem confined_disconnect (r : Run) (c : ConnId) :
    Confined c id (r.registry.forget c) r (r.disconnect c, []) :=
  { confined_changeProxy { r with registry := r.registry.forget c } c
      (f := fun p => { p with stopped := true }) fun _ => rfl with }

theorem onLink_of_link? {r : Run} {c : ConnId} (e : LinkEvent) {l : Link} (hl : r.link? c = some l) :
    r.onLink c e =
      (if l.stage ≠ .finished ∧ (l.step e).1.stage = .finished then
        (r.setLink c (l.step e).1).disconnect c
      else r.setLink c (l.step e).1, (l.step e).2.map (.link c)) := by
  rw [onLink, hl]

theorem turn_onLink (a : Seal.Aead) (r : Run) (c : ConnId) (e : LinkEvent) :
    Turn a r (.link c e) (r.onLink c e) := by
  cases hl : r.link? c with
  | none =>
    rw [onLink, hl]
    exact .rests _ _ hl fun d => Confined.refl r d
  | some l =>
    have hset := confined_setLink r c (l.step e).1
    rw [onLink_of_link? e hl]
    apply Turn.moves c e l _ hl
    unfold remembered
    split
    · exact hset.trans (confined_disconnect _ c)
    · exact hset

theorem confined_handle (a : Seal.Aead) (bind : Binder) {r : Run} {c : ConnId} {l l' : Link}
    {m : Message} (hl : r.link? c = some l) (ht : l.take? = some (m, l')) :
    Confined c (fun _ => Action.allOnLink l' (react r.options a bind r.now r.registry c m).2)
      (react r.options a bind r.now r.registry c m).1 r (r.handle a bind c) := by
  have hbind : (r.link? c).bind Link.take? = some (m, l') := by rw [hl, Option.bind_some, ht]
  rw [handle, hbind]
  let taken : Run :=
    { r.setLink c l' with registry := (react r.options a bind r.now r.registry c m).1 }
  have htaken : Confined c (fun _ => l') taken.registry r (taken, []) :=
    { confined_setLink r c l' with registry := rfl }
  exact htaken.trans (confined_performAll _ taken fun p hp => (react_of_listen hp).1)

theorem turn_handle (a : Seal.Aead) (bind : Binder) (r : Run) (c : ConnId) :
    Turn a r (.handle c bind) (r.handle a bind c) := by
  cases hbind : (r.link? c).bind Link.take? with
  | none =>
    rw [handle, hbind]
    exact .rests _ _ hbind fun d => Confined.refl r d
  | some taken =>
    obtain ⟨l, hl, ht⟩ := Option.bind_eq_some_iff.mp hbind
    exact .handles c bind l taken.2 taken.1 _ hl ht (confined_handle a bind hl ht)

theorem turn (a : Seal.Aead) (r : Run) (e : Event) : Turn a r e (r.step a e) := by
  cases e with
  | connect peer => exact .connects peer
  | link c e => exact turn_onLink a r c e
  | handle c bind => exact turn_handle a bind r c
  | table c e =>
    obtain ⟨sessions, h⟩ := confined_onTable r c e
    exact .announces _ c sessions _ rfl h
  | sweep c =>
    obtain ⟨sessions, h⟩ := confined_sweep r c
    exact .announces _ c sessions _ rfl h
  | wind c =>
    obtain ⟨sessions, h⟩ := confined_wind r c
    exact .announces _ c sessions _ rfl h
  | advance ms => exact .rests _ _ trivial fun c => { Confined.refl r c with }

end Run

end ReverseTunnel.Server

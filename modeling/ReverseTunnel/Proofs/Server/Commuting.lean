import ReverseTunnel.Proofs.Server.NameContest
import ReverseTunnel.Proofs.Server.Replies
import ReverseTunnel.Proofs.Server.Proxies

/-!
Messages on different connections, in either order.

What is done about a message depends on little of what is remembered: on whether its connection
is authenticated and owns a proxy and, if it is a request that opens and carries the right secret,
on whether its name is taken (`Seen`). A message on another connection changes nothing of this,
unless both are such requests and ask for the same name.

What is proved:
1. Two messages that are no such rivals can be handled in either order: the servers agree
   afterwards, and with each message the same is done to the world around (`messages_commute`).
2. Two requests for one name cannot: it goes to the one that is handled first
   (`first_of_rivals_wins`).

What is assumed: the messages ask neither for one name nor for one address (`Rivals`), and a bind
depends on the other message only at the address which that one asks for (`BindsAfter`).

What is not said: that the lists of proxies are in the same order afterwards. They have the same
entries (`Agrees`).
-/

namespace ReverseTunnel.Server

open Control
open Session (ConnId)
open Wire (Message Request)

variable {o : Options} {a : Seal.Aead} {bind bind' : Binder} {now : Nat} {reg reg' : Registry}
  {c d e : ConnId} {m n : Message} {q : Request}

/-! ## What a message asks for -/

/-- A message is a request that opens and carries the right secret. -/
def Requests (o : Options) (a : Seal.Aead) (m : Message) (q : Request) : Prop :=
  ∃ sealedRequest, m = .openDataPort sealedRequest ∧
    Seal.openRequest a o.sealKey sealedRequest = .ok q ∧ q.secret = o.secret

/-- Two messages are requests that open and carry the right secret, for the same name or for
the same address. -/
def Rivals (o : Options) (a : Seal.Aead) (m n : Message) : Prop :=
  ∃ q q', Requests o a m q ∧ Requests o a n q' ∧
    (Text.trim q.name = Text.trim q'.name ∨ o.bindAddr q = o.bindAddr q')

/-- What binding comes to once a message was handled is what it came to before, except at the
address that the message asks for. -/
def BindsAfter (o : Options) (a : Seal.Aead) (m : Message) (bind bind' : Binder) : Prop :=
  ∀ addr, (∀ q, Requests o a m q → o.bindAddr q ≠ addr) → bind' addr = bind addr

theorem Rivals.symm (h : Rivals o a m n) : Rivals o a n m := by
  obtain ⟨q, q', hq, hq', hname | haddr⟩ := h
  · exact ⟨q', q, hq', hq, .inl hname.symm⟩
  · exact ⟨q', q, hq', hq, .inr haddr.symm⟩

/-- The outcome of a bind is the same before and after a message that is no rival. -/
theorem BindsAfter.same (h : BindsAfter o a m bind bind') (hrivals : ¬Rivals o a m n)
    (hq : Requests o a n q) : bind' (o.bindAddr q) = bind (o.bindAddr q) :=
  h _ fun q' hq' haddr => hrivals ⟨q', q, hq', hq, .inr haddr⟩

/-! ## What is looked at -/

/-- To a message of a connection two registries are the same. -/
structure Seen (o : Options) (a : Seal.Aead) (c : ConnId) (m : Message) (reg reg' : Registry) :
    Prop where
  authenticated : reg'.isAuthenticated c = reg.isAuthenticated c
  owns : reg'.owns c = reg.owns c
  taken : ∀ q, Requests o a m q → reg'.isTaken (Text.trim q.name) = reg.isTaken (Text.trim q.name)

theorem provision_of_seen {sealedRequest : Bytes} (h : Seen o a c (.openDataPort sealedRequest) reg reg')
    (hbind : ∀ q, Requests o a (.openDataPort sealedRequest) q →
      bind' (o.bindAddr q) = bind (o.bindAddr q)) :
    provision o a bind' now reg' c sealedRequest = provision o a bind now reg c sealedRequest := by
  unfold provision
  rw [h.authenticated]
  cases hopens : Seal.openRequest a o.sealKey sealedRequest with
  | error error => rfl
  | ok q =>
    by_cases hsecret : q.secret = o.secret
    · have hq : Requests o a (.openDataPort sealedRequest) q := ⟨sealedRequest, rfl, hopens, hsecret⟩
      simp only [h.owns, h.taken q hq, hbind q hq]
    · simp only [ne_eq, hsecret, not_false_eq_true, if_true]

/-- So is every message answered. -/
theorem react_of_seen (h : Seen o a c m reg reg')
    (hbind : ∀ q, Requests o a m q → bind' (o.bindAddr q) = bind (o.bindAddr q)) :
    (react o a bind' now reg' c m).2 = (react o a bind now reg c m).2 := by
  cases m with
  | auth token =>
    simp only [react, onAuth]
    split <;> rfl
  | heartbeat timestamp => simp only [react, onHeartbeat, h.authenticated]
  | openDataPort sealedRequest =>
    simp only [react, onOpenDataPort, provision_of_seen h hbind]
    split <;> rfl
  | _ => rfl

/-! ## What is changed -/

/-- The proxies that actions make listen. -/
def listened (ys : List Action) : List Registration :=
  ys.filterMap fun | .listen p => some p | _ => none

theorem listened_eq_nil {ys : List Action} (h : ∀ y ∈ ys, ∀ p, y ≠ .listen p) : listened ys = [] := by
  rw [listened, List.filterMap_eq_nil_iff]
  intro y hy
  cases y with
  | listen p => exact absurd rfl (h _ hy p)
  | _ => rfl

theorem proxies_react (o : Options) (a : Seal.Aead) (bind : Binder) (now : Nat) (reg : Registry)
    (c : ConnId) (m : Message) : (react o a bind now reg c m).1.proxies =
      reg.proxies ++ listened (react o a bind now reg c m).2 := by
  rcases Run.react_cases o a bind now reg c m with ⟨p, -, -, -, hreact⟩ | ⟨hproxies, hactions⟩
  · rw [hreact]
    rfl
  · rw [hproxies, listened_eq_nil fun y hy => (hactions y hy).1, List.append_nil]

/-- A proxy is registered for a request that opens and carries the right secret, under its
name. -/
theorem requests_of_listened {p : Registration} (h : p ∈ listened (react o a bind now reg c m).2) :
    p.owner = c ∧ ∃ q, Requests o a m q ∧ p.name = Text.trim q.name := by
  obtain ⟨y, hy, hlisten⟩ := List.mem_filterMap.mp h
  have hmem : .listen p ∈ (react o a bind now reg c m).2 := by
    cases y with
    | listen p' =>
      cases hlisten
      exact hy
    | _ => cases hlisten
  refine ⟨(react_of_listen hmem).1, ?_⟩
  cases m with
  | openDataPort sealedRequest =>
    simp only [react, onOpenDataPort] at hmem
    split at hmem
    · rename_i p' hp'
      obtain rfl : p = p' := by simpa using hmem
      obtain ⟨q, hvalid, -, hdecided⟩ := valid_of_provision hp'
      exact ⟨q, ⟨sealedRequest, rfl, hvalid.opens, hvalid.secret⟩, (eq_of_decided hdecided).2⟩
    · simp at hmem
  | auth token =>
    simp only [react, onAuth] at hmem
    split at hmem
    · simp at hmem
    · split at hmem <;> simp at hmem
  | heartbeat timestamp =>
    simp only [react, onHeartbeat] at hmem
    split at hmem <;> simp at hmem
  | _ => cases hmem

/-- Nothing that is looked at for a message changes with a message of another connection that
is no rival of it. -/
theorem seen_after (hcd : c ≠ d) (hrivals : ¬Rivals o a m n) :
    Seen o a d n reg (react o a bind now reg c m).1 where
  authenticated := ((recorded_react o a bind now reg c m).apart hcd.symm).1
  owns := by
    rw [Registry.owns, Registry.owns, proxies_react, List.any_append]
    have hnone : (listened (react o a bind now reg c m).2).any (·.owner = d) = false := by
      rw [List.any_eq_false]
      intro p hp
      rw [(requests_of_listened hp).1]
      simpa using hcd
    rw [hnone, Bool.or_false]
  taken q hq := by
    rw [Registry.isTaken, Registry.isTaken, proxies_react, List.any_append]
    have hnone : (listened (react o a bind now reg c m).2).any (·.name = Text.trim q.name) = false := by
      rw [List.any_eq_false]
      intro p hp hsame
      obtain ⟨-, q', hq', hname⟩ := requests_of_listened hp
      exact hrivals ⟨q', q, hq', hq, .inl (hname.symm.trans (by simpa using hsame))⟩
    rw [hnone, Bool.or_false]

theorem isAuthenticated_either_order {bind₁ bind₂ bind₃ bind₄ : Binder} (hcd : c ≠ d) :
    (react o a bind₂ now (react o a bind₁ now reg c m).1 d n).1.isAuthenticated e =
      (react o a bind₄ now (react o a bind₃ now reg d n).1 c m).1.isAuthenticated e := by
  have hapart {bind : Binder} {reg : Registry} {c : ConnId} {m : Message} (h : e ≠ c) :=
    ((recorded_react o a bind now reg c m).apart h).1
  have hown {bind : Binder} {reg : Registry} {c : ConnId} {m : Message} :=
    (recorded_react o a bind now reg c m).isAuthenticated
  by_cases hc : e = c
  · subst hc
    rw [hapart hcd, hown, hown, hapart hcd]
  · by_cases hd : e = d
    · subst hd
      rw [hown, hapart hc, hapart hc, hown]
    · rw [hapart hd, hapart hc, hapart hc, hapart hd]

/-! ## On the links -/

namespace Run

variable {r r' : Run} {l l' k k' : Link}

/-- What comes of actions to the world around depends on the link alone. -/
theorem effects_performAll (c : ConnId) (ys : List Action) : ∀ r r' : Run, r'.link? c = r.link? c →
    (performAll c r' ys).2 = (performAll c r ys).2 := by
  induction ys with
  | nil => exact fun _ _ _ => rfl
  | cons y ys ih =>
    intro r r' hsame
    have hfirst : (r'.perform c y).2 = (r.perform c y).2 ∧
        (r'.perform c y).1.link? c = (r.perform c y).1.link? c := by
      refine ⟨?_, ?_⟩
      · cases y with
        | emit m =>
          simp only [perform, emit, hsame]
          cases r.link? c <;> rfl
        | close =>
          simp only [perform, hsame]
          cases r.link? c <;> rfl
        | count _ | listen _ => rfl
      · -- a proxy that comes to listen leaves the links as they are
        have hlink (r : Run) : (r.perform c y).1.link? c = (r.link? c).map y.onLink := by
          cases y with
          | listen p => exact Option.map_id_apply.symm
          | emit _ | close | count _ => exact (confined_perform r _ fun p hp => by cases hp).own
        rw [hlink, hlink, hsame]
    show (r'.perform c y).2 ++ (performAll c (r'.perform c y).1 ys).2 = _
    rw [hfirst.1, ih _ _ hfirst.2]
    rfl

theorem handle_eq (a : Seal.Aead) (bind : Binder) (hl : r.link? c = some l)
    (hm : l.take? = some (m, l')) :
    r.handle a bind c = performAll c
      { r.setLink c l' with registry := (react r.options a bind r.now r.registry c m).1 }
      (react r.options a bind r.now r.registry c m).2 := by
  have hbind : (r.link? c).bind Link.take? = some (m, l') := by rw [hl, Option.bind_some, hm]
  rw [handle, hbind]

theorem proxies_handle (a : Seal.Aead) (bind : Binder) (hl : r.link? c = some l)
    (hm : l.take? = some (m, l')) : (r.handle a bind c).1.proxies =
      r.proxies ++ (listened (react r.options a bind r.now r.registry c m).2).map r.newProxy := by
  rw [handle_eq a bind hl hm]
  rcases react_cases r.options a bind r.now r.registry c m with
    ⟨p, -, hstarted, -, hreact⟩ | ⟨-, hactions⟩
  · rw [hreact, (proxies_of_grant _ c _ p).1]
    simp only [listened, List.filterMap_cons, List.filterMap_nil, List.map_cons, List.map_nil, newProxy,
      hstarted]
    rfl
  · rw [(proxies_performAll c hactions _).1, listened_eq_nil fun y hy => (hactions y hy).1,
      List.map_nil, List.append_nil]
    rfl

/-- What there is after the next messages of two connections were handled, whose actions are
given. -/
structure Both (r : Run) (c d : ConnId) (l k : Link) (ys zs : List Action) (x : Run) : Prop where
  first : x.link? c = some (Action.allOnLink l ys)
  second : x.link? d = some (Action.allOnLink k zs)
  others : ∀ e, e ≠ c → e ≠ d → x.link? e = r.link? e
  registered : x.registry.proxies = r.registry.proxies ++ listened ys ++ listened zs
  listening : x.proxies = r.proxies ++ (listened ys).map r.newProxy ++ (listened zs).map r.newProxy

section

variable (bindC : Binder) {bindD : Binder} (hcd : c ≠ d) (hl : r.link? c = some l)
  (hm : l.take? = some (m, l')) (hk : r.link? d = some k) (hn : k.take? = some (n, k'))
  (hrivals : ¬Rivals r.options a m n) (hbind : BindsAfter r.options a m bindD bind')
include hcd hl hm hk hn hrivals hbind

/-- A message is handled after one of another connection that is no rival of it as if that had
not been there. -/
theorem handle_after :
    ((r.handle a bindC c).1.handle a bind' d).2 = (r.handle a bindD d).2 ∧
      Both r c d l' k' (react r.options a bindC r.now r.registry c m).2
        (react r.options a bindD r.now r.registry d n).2 ((r.handle a bindC c).1.handle a bind' d).1 ∧
      ((r.handle a bindC c).1.handle a bind' d).1.registry =
        (react r.options a bind' r.now (react r.options a bindC r.now r.registry c m).1 d n).1 := by
  have hfirst := confined_handle a bindC hl hm
  have hnow : (r.handle a bindC c).1.now = r.now := now_step a r (e := .handle c bindC) nofun
  have hlisten := proxies_handle a bindC hl hm
  have hreaction : (react r.options a bind' r.now (r.handle a bindC c).1.registry d n).2 =
      (react r.options a bindD r.now r.registry d n).2 := by
    rw [hfirst.registry]
    exact react_of_seen (seen_after hcd hrivals) fun q hq => hbind.same hrivals hq
  generalize r.handle a bindC c = x at hfirst hnow hlisten hreaction
  have hk' : x.1.link? d = some k := (hfirst.others d hcd.symm).trans hk
  have hsecond := confined_handle a bind' hk' hn
  have hlisten' := proxies_handle a bind' hk' hn
  rw [hfirst.options, hnow, hreaction] at hsecond hlisten'
  refine ⟨?_, ⟨?_, ?_, fun e hc hd => (hsecond.others e hd).trans (hfirst.others e hc), ?_, ?_⟩, ?_⟩
  · rw [handle_eq a bind' hk' hn, handle_eq a bindD hk hn, hfirst.options, hnow, hreaction]
    apply effects_performAll
    show (x.1.setLink d k').link? d = (r.setLink d k').link? d
    rw [link?_setLink, link?_setLink, if_pos rfl, if_pos rfl, hk', hk]
  · rw [hsecond.others c hcd, hfirst.own, hl]
    rfl
  · rw [hsecond.own, hk']
    rfl
  · rw [hsecond.registry, proxies_react, hreaction, hfirst.registry, proxies_react]
  · have hnew : x.1.newProxy = r.newProxy := funext fun p => by rw [newProxy, newProxy, hfirst.options]
    rw [hlisten', hlisten, hnew]
  · rw [hsecond.registry, hfirst.registry]

end

/-! ## Either order -/

/-- Two servers agree on who is authenticated, on what is registered and listens, and on every
connection: what was read on it, what is queued there and whether it is closed. -/
structure Agrees (x y : Run) : Prop where
  authenticated : ∀ e, x.registry.isAuthenticated e = y.registry.isAuthenticated e
  registered : x.registry.proxies.Perm y.registry.proxies
  listening : x.proxies.Perm y.proxies
  links : ∀ e, x.link? e = y.link? e

/-- Messages of two connections that are no rivals can be handled in either order: the servers
agree afterwards, and with each message the same is done to the world around. What binding an
address comes to is given for each of them, and may be another after the other message only at
the address which that one asks for. -/
theorem messages_commute {bindC bindC' bindD bindD' : Binder} (hcd : c ≠ d)
    (hl : r.link? c = some l) (hm : l.take? = some (m, l')) (hk : r.link? d = some k)
    (hn : k.take? = some (n, k')) (hrivals : ¬Rivals r.options a m n)
    (hC : BindsAfter r.options a n bindC bindC') (hD : BindsAfter r.options a m bindD bindD') :
    Agrees ((r.handle a bindC c).1.handle a bindD' d).1 ((r.handle a bindD d).1.handle a bindC' c).1 ∧
      ((r.handle a bindC c).1.handle a bindD' d).2 = (r.handle a bindD d).2 ∧
      ((r.handle a bindD d).1.handle a bindC' c).2 = (r.handle a bindC c).2 := by
  obtain ⟨heffects, hboth, hregistry⟩ := handle_after bindC hcd hl hm hk hn hrivals hD
  obtain ⟨heffects', hboth', hregistry'⟩ := handle_after bindD hcd.symm hk hn hl hm
    (fun h => hrivals h.symm) hC
  refine ⟨⟨fun e => ?_, ?_, ?_, fun e => ?_⟩, heffects, heffects'⟩
  · rw [hregistry, hregistry']
    exact isAuthenticated_either_order hcd
  · rw [hboth.registered, hboth'.registered, List.append_assoc, List.append_assoc]
    exact List.perm_append_comm.append_left _
  · rw [hboth.listening, hboth'.listening, List.append_assoc, List.append_assoc]
    exact List.perm_append_comm.append_left _
  · by_cases hc : e = c
    · rw [hc, hboth.first, hboth'.second]
    · by_cases hd : e = d
      · rw [hd, hboth.second, hboth'.first]
      · rw [hboth.others e hc hd, hboth'.others e hd hc]

/-- Of two requests for one free name the one that is handled first gets it, if its bind
succeeds, so that rivals cannot be handled in either order. -/
theorem first_of_rivals_wins {bindC bindD : Binder} {q q' : Request} {rest rest' : Link} {bound : Bound}
    (hcd : c ≠ d) (hc : Asks a r (.handle c bindC) c q bindC rest)
    (hd : Asks a r (.handle d bindD) d q' bindD rest') (hname : Text.trim q'.name = Text.trim q.name)
    (hfree : r.registry.isTaken (Text.trim q.name) = false)
    (hbind : bindC (r.options.bindAddr q) = .ok bound) :
    ∃ p, p.owner = c ∧ p.name = Text.trim q.name ∧
      ((r.handle a bindC c).1.handle a bindD d).1.registry = r.registry.register p := by
  obtain ⟨p, howner, hpname, -, hgrants⟩ := hc.granted hfree hbind
  obtain ⟨-, l, sealedRequest, hl, hm, -⟩ := hc
  obtain ⟨-, k, sealedRequest', hk, hn, hvalid⟩ := hd
  have hfirst := confined_handle a bindC hl hm
  have hregistry : (r.handle a bindC c).1.registry = r.registry.register p := hgrants.registry
  refine ⟨p, howner, hpname, ?_⟩
  -- the other request is as valid as before, but its name is taken
  have hasks : Asks a (r.handle a bindC c).1 (.handle d bindD) d q' bindD rest' := by
    refine ⟨rfl, k, sealedRequest', (hfirst.others d hcd.symm).trans hk, hn, ?_⟩
    rw [hfirst.options, hregistry]
    refine ⟨hvalid.authenticated, hvalid.opens, hvalid.secret, hvalid.named, ?_⟩
    rw [Registry.owns, Registry.register, List.any_append]
    have hother : ¬p.owner = d := howner ▸ hcd
    simpa [hother, Registry.owns] using hvalid.single
  have htaken : (r.handle a bindC c).1.registry.isTaken (Text.trim q'.name) = true := by
    rw [hname, ← hpname]
    exact isTaken_of_mem hgrants.registered
  exact ((hasks.refused htaken).registry).trans hregistry

/-! ## Two requests that are no rivals -/

/-- A cipher that leaves everything readable. -/
def plainCipher : Seal.Aead := ⟨fun _ _ plain => plain, fun _ _ text => some text⟩

/-- A request for a name and a port, in its sealed form. -/
def asksFor (name : String) (port : UInt16) : Message :=
  .openDataPort (Seal.sealRequest plainCipher "s" (List.replicate Seal.nonceLength 0)
    { secret := "s", name, host := none, port })

/-- Two connections that are authenticated, each with a request that waits. -/
def twoAsk (m n : Message) : Run where
  options := webOptions
  registry := { authenticated := [⟨1⟩, ⟨2⟩] }
  nextConn := 3
  connections := [{ id := ⟨1⟩, link := { inbox := [m] } }, { id := ⟨2⟩, link := { inbox := [n] } }]

/-- Everything can be bound but one address. -/
def bindsAllBut (addr : String) : Binder := fun addr' =>
  if addr' = addr then .error "Address already in use (os error 98)" else bindsAll addr'

/-- The requests for web and for db are handled, and after each its address is in use. -/
def webThenDb : Run :=
  (((twoAsk (asksFor "web" 1) (asksFor "db" 2)).handle plainCipher bindsAll ⟨1⟩).1.handle plainCipher
    (bindsAllBut "h:1") ⟨2⟩).1

def dbThenWeb : Run :=
  (((twoAsk (asksFor "web" 1) (asksFor "db" 2)).handle plainCipher bindsAll ⟨2⟩).1.handle plainCipher
    (bindsAllBut "h:2") ⟨1⟩).1

theorem requests_asksFor {name : String} {port : UInt16}
    (h : Requests webOptions plainCipher (asksFor name port) q)
    (hopens : Seal.openRequest plainCipher webOptions.sealKey
      (Seal.sealRequest plainCipher "s" (List.replicate Seal.nonceLength 0) ⟨"s", name, none, port⟩) =
        .ok ⟨"s", name, none, port⟩) : q = ⟨"s", name, none, port⟩ := by
  obtain ⟨sealedRequest, heq, hq, -⟩ := h
  cases heq
  exact (Except.ok.inj (hopens.symm.trans hq)).symm

theorem messages_commute_webAndDb :
    ¬Rivals webOptions plainCipher (asksFor "web" 1) (asksFor "db" 2) ∧
    BindsAfter webOptions plainCipher (asksFor "web" 1) bindsAll (bindsAllBut "h:1") ∧
    BindsAfter webOptions plainCipher (asksFor "db" 2) bindsAll (bindsAllBut "h:2") ∧
    Agrees webThenDb dbThenWeb ∧
    webThenDb.registry.proxies.map (·.name) = ["web", "db"] ∧
    dbThenWeb.registry.proxies.map (·.name) = ["db", "web"] := by
  have hweb : ∀ q, Requests webOptions plainCipher (asksFor "web" 1) q → q = ⟨"s", "web", none, 1⟩ :=
    fun q hq => requests_asksFor hq (by decide +kernel)
  have hdb : ∀ q, Requests webOptions plainCipher (asksFor "db" 2) q → q = ⟨"s", "db", none, 2⟩ :=
    fun q hq => requests_asksFor hq (by decide +kernel)
  have hrivals : ¬Rivals webOptions plainCipher (asksFor "web" 1) (asksFor "db" 2) := by
    rintro ⟨q, q', hq, hq', hsame⟩
    rw [hweb q hq, hdb q' hq'] at hsame
    revert hsame
    decide +kernel
  have hbindsWeb : BindsAfter webOptions plainCipher (asksFor "web" 1) bindsAll (bindsAllBut "h:1") := by
    intro addr haddr
    have hne : ¬addr = "h:1" := by
      rintro rfl
      exact haddr ⟨"s", "web", none, 1⟩ ⟨_, rfl, by decide +kernel, rfl⟩ (by decide +kernel)
    exact if_neg hne
  have hbindsDb : BindsAfter webOptions plainCipher (asksFor "db" 2) bindsAll (bindsAllBut "h:2") := by
    intro addr haddr
    have hne : ¬addr = "h:2" := by
      rintro rfl
      exact haddr ⟨"s", "db", none, 2⟩ ⟨_, rfl, by decide +kernel, rfl⟩ (by decide +kernel)
    exact if_neg hne
  have hcommutes := messages_commute (r := twoAsk (asksFor "web" 1) (asksFor "db" 2))
    (c := ⟨1⟩) (d := ⟨2⟩) (by decide) rfl rfl rfl rfl hrivals hbindsDb hbindsWeb
  exact ⟨hrivals, hbindsWeb, hbindsDb, hcommutes.1, by decide +kernel, by decide +kernel⟩

end Run

end ReverseTunnel.Server

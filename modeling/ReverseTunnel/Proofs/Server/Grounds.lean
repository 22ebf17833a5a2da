import ReverseTunnel.Proofs.Address
import ReverseTunnel.Proofs.Seal.Envelope
import ReverseTunnel.Proofs.Server.Commuting

/-!
On what ground a request for a public port is refused, and what a refusal leaves.

What is proved, of every state of a server and whatever a bind comes to
(`provisioning_is_atomic`):
1. Each ground is stated by itself, whatever else is wrong with the request (`Applies`), and
   the grounds have an order (`ProvisionError.rank`). The outcome of a request is the first
   ground that applies (`FirstGround`), of which there is at most one, and a registration if
   none does. The bind comes last: no other refusal depends on what a bind would come to.
2. A refusal changes the link that the request came on, the count of failures, and nothing else
   (`RefusedCleanly`). A grant adds one entry and one listener (`GrantedCleanly`).

What is not said: whether the answer reaches the one who asked (`Proofs.Server.Refusals`), and how
a bind comes to fail.
-/

namespace ReverseTunnel.Server

open Session (ConnId)
open Wire (Message Request)

variable {o : Options} {a : Seal.Aead} {bind : Binder} {now : Nat} {reg : Registry} {c : ConnId}
  {sealedRequest : Bytes} {p : Registration} {q : Request} {e e' : ProvisionError}

/-- A ground for refusing a request, whatever else there is against it. -/
def Applies (o : Options) (a : Seal.Aead) (bind : Binder) (reg : Registry) (c : ConnId)
    (sealedRequest : Bytes) : ProvisionError → Prop
  | .unauthenticated => reg.isAuthenticated c = false
  | .sealed error => Seal.Fails a o.sealKey sealedRequest error
  | .wrongSecret => ∃ q, Seal.openRequest a o.sealKey sealedRequest = .ok q ∧ q.secret ≠ o.secret
  | .emptyName => ∃ q, Seal.openRequest a o.sealKey sealedRequest = .ok q ∧ Text.trim q.name = ""
  | .alreadyProvisioned => ∃ p ∈ reg.proxies, p.owner = c
  | .nameTaken name => ∃ q, Seal.openRequest a o.sealKey sealedRequest = .ok q ∧
      Text.trim q.name = name ∧ ∃ p ∈ reg.proxies, p.name = name
  | .bind addr cause => ∃ q, Seal.openRequest a o.sealKey sealedRequest = .ok q ∧
      o.bindAddr q = addr ∧ bind addr = .error cause

/-- The place of a ground in the order in which they are gone through. -/
def ProvisionError.rank : ProvisionError → Nat
  | .unauthenticated => 0
  | .sealed _ => 1
  | .wrongSecret => 2
  | .emptyName => 3
  | .alreadyProvisioned => 4
  | .nameTaken _ => 5
  | .bind _ _ => 6

/-- The ground that applies and comes before every other that does. -/
structure FirstGround (o : Options) (a : Seal.Aead) (bind : Binder) (reg : Registry) (c : ConnId)
    (sealedRequest : Bytes) (e : ProvisionError) : Prop where
  applies : Applies o a bind reg c sealedRequest e
  first : ∀ e', Applies o a bind reg c sealedRequest e' → e.rank ≤ e'.rank

/-! ## The order of the grounds -/

/-- What a ground says of an opened request it says of the one that there is. -/
theorem eq_of_opens {q' : Request} (hopens : Seal.openRequest a o.sealKey sealedRequest = .ok q)
    (hq' : Seal.openRequest a o.sealKey sealedRequest = .ok q') : q' = q :=
  Except.ok.inj (hq'.symm.trans hopens)

/-- What a ground says of the request that it refuses is settled by the request. -/
theorem Applies.eq_of_rank (h : Applies o a bind reg c sealedRequest e)
    (h' : Applies o a bind reg c sealedRequest e') (hrank : e.rank = e'.rank) : e = e' := by
  cases e with
  | unauthenticated | wrongSecret | emptyName | alreadyProvisioned =>
    cases e' <;> first | rfl | cases hrank
  | sealed error =>
    cases e' with
    | sealed error' =>
      have heq := (Seal.openRequest_of_fails h).symm.trans (Seal.openRequest_of_fails h')
      rw [Except.error.inj heq]
    | _ => cases hrank
  | nameTaken name =>
    cases e' with
    | nameTaken name' =>
      obtain ⟨q, hq, rfl, -⟩ := h
      obtain ⟨q', hq', rfl, -⟩ := h'
      rw [eq_of_opens hq hq']
    | _ => cases hrank
  | bind addr cause =>
    cases e' with
    | bind addr' cause' =>
      obtain ⟨q, hq, rfl, hbind⟩ := h
      obtain ⟨q', hq', rfl, hbind'⟩ := h'
      cases eq_of_opens hq hq'
      rw [Except.error.inj (hbind.symm.trans hbind')]
    | _ => cases hrank

theorem FirstGround.unique (h : FirstGround o a bind reg c sealedRequest e)
    (h' : FirstGround o a bind reg c sealedRequest e') : e = e' :=
  h.applies.eq_of_rank h'.applies
    (Nat.le_antisymm (h.first e' h'.applies) (h'.first e h.applies))

/-- Nothing against a request comes before the given place in the order. -/
def Passes (o : Options) (a : Seal.Aead) (bind : Binder) (reg : Registry) (c : ConnId)
    (sealedRequest : Bytes) (n : Nat) : Prop :=
  ∀ e, Applies o a bind reg c sealedRequest e → n ≤ e.rank

theorem passes_zero : Passes o a bind reg c sealedRequest 0 := fun _ _ => Nat.zero_le _

theorem Passes.next {n : Nat} (h : Passes o a bind reg c sealedRequest n)
    (hno : ∀ e, e.rank = n → ¬Applies o a bind reg c sealedRequest e) :
    Passes o a bind reg c sealedRequest (n + 1) := by
  intro e he
  have hn : n ≠ e.rank := fun hn => hno e hn.symm he
  have := h e he
  omega

/-! ## Test by test -/

theorem passes_authenticated (hauth : reg.isAuthenticated c = true) :
    Passes o a bind reg c sealedRequest 1 :=
  passes_zero.next fun e hrank => by
    cases e with
    | unauthenticated => simp [Applies, hauth]
    | _ => cases hrank

theorem Passes.single (h : Passes o a bind reg c sealedRequest 4) (howns : reg.owns c = false) :
    Passes o a bind reg c sealedRequest 5 :=
  h.next fun e hrank => by
    cases e with
    | alreadyProvisioned =>
      rintro ⟨p, hp, howner⟩
      exact Registry.owns_eq_false howns p hp howner
    | _ => cases hrank

section

variable (hopens : Seal.openRequest a o.sealKey sealedRequest = .ok q)
include hopens

theorem Passes.opened (h : Passes o a bind reg c sealedRequest 1) :
    Passes o a bind reg c sealedRequest 2 :=
  h.next fun e hrank => by
    cases e with
    | sealed error =>
      intro hfails
      cases hopens.symm.trans (Seal.openRequest_of_fails hfails)
    | _ => cases hrank

theorem Passes.secret (h : Passes o a bind reg c sealedRequest 2) (hsecret : q.secret = o.secret) :
    Passes o a bind reg c sealedRequest 3 :=
  h.next fun e hrank => by
    cases e with
    | wrongSecret =>
      rintro ⟨q', hq', hwrong⟩
      exact hwrong (eq_of_opens hopens hq' ▸ hsecret)
    | _ => cases hrank

theorem Passes.named (h : Passes o a bind reg c sealedRequest 3) (hname : Text.trim q.name ≠ "") :
    Passes o a bind reg c sealedRequest 4 :=
  h.next fun e hrank => by
    cases e with
    | emptyName =>
      rintro ⟨q', hq', hempty⟩
      exact hname (eq_of_opens hopens hq' ▸ hempty)
    | _ => cases hrank

theorem Passes.free (h : Passes o a bind reg c sealedRequest 5)
    (hfree : reg.isTaken (Text.trim q.name) = false) : Passes o a bind reg c sealedRequest 6 :=
  h.next fun e hrank => by
    cases e with
    | nameTaken name =>
      rintro ⟨q', hq', rfl, p, hp, hname⟩
      rw [eq_of_opens hopens hq'] at hname
      exact Registry.isTaken_eq_false hfree p hp hname
    | _ => cases hrank

theorem Passes.bound {bound : Bound} (h : Passes o a bind reg c sealedRequest 6)
    (hbind : bind (o.bindAddr q) = .ok bound) : Passes o a bind reg c sealedRequest 7 :=
  h.next fun e hrank => by
    cases e with
    | bind addr cause =>
      rintro ⟨q', hq', rfl, hfails⟩
      rw [eq_of_opens hopens hq', hbind] at hfails
      cases hfails
    | _ => cases hrank

end

/-- No ground is further back than a failed bind. -/
theorem Passes.none (h : Passes o a bind reg c sealedRequest 7) (e : ProvisionError) :
    ¬Applies o a bind reg c sealedRequest e := by
  intro he
  have := h e he
  cases e <;> simp [ProvisionError.rank] at this

/-! ## What a request comes to -/

/-- What there is against a request once it was decided on: its refusal is the first ground
that applies, and against what is granted there is nothing. -/
def Accounts (o : Options) (a : Seal.Aead) (bind : Binder) (reg : Registry) (c : ConnId)
    (sealedRequest : Bytes) : Except ProvisionError Registration → Prop
  | .error e => FirstGround o a bind reg c sealedRequest e
  | .ok _ => ∀ e, ¬Applies o a bind reg c sealedRequest e

theorem accounts_provision (o : Options) (a : Seal.Aead) (bind : Binder) (now : Nat)
    (reg : Registry) (c : ConnId) (sealedRequest : Bytes) :
    Accounts o a bind reg c sealedRequest (provision o a bind now reg c sealedRequest) := by
  -- one split for each test of the decision, and one step along the order if it is passed
  unfold provision
  split
  · rename_i hauth
    exact ⟨by simpa [Applies] using hauth, passes_zero⟩
  rename_i hauth
  have hauth : Passes o a bind reg c sealedRequest 1 := passes_authenticated (by simpa using hauth)
  split
  · rename_i error hopens
    exact ⟨Seal.fails_of_openRequest hopens, hauth⟩
  rename_i q hopens
  have hopened := hauth.opened hopens
  dsimp only
  split
  · rename_i hsecret
    exact ⟨⟨q, hopens, hsecret⟩, hopened⟩
  rename_i hsecret
  have hsecret := hopened.secret hopens (Decidable.not_not.mp hsecret)
  split
  · rename_i hname
    exact ⟨⟨q, hopens, hname⟩, hsecret⟩
  rename_i hname
  have hname := hsecret.named hopens hname
  split
  · rename_i howns
    exact ⟨by simpa [Applies, Registry.owns] using howns, hname⟩
  rename_i howns
  have howns := hname.single (Bool.eq_false_iff.mpr howns)
  split
  · rename_i htaken
    exact ⟨⟨q, hopens, rfl, by simpa [Registry.isTaken] using htaken⟩, howns⟩
  rename_i hfree
  have hfree := howns.free hopens (Bool.eq_false_iff.mpr hfree)
  split
  · rename_i cause hbind
    exact ⟨⟨q, hopens, rfl, hbind⟩, hfree⟩
  · rename_i bound hbind
    exact (hfree.bound hopens hbind).none

theorem provision_eq_error_iff :
    provision o a bind now reg c sealedRequest = .error e ↔
      FirstGround o a bind reg c sealedRequest e := by
  have haccounts := accounts_provision o a bind now reg c sealedRequest
  constructor
  · intro h
    rwa [h] at haccounts
  · intro h
    generalize provision o a bind now reg c sealedRequest = outcome at haccounts ⊢
    cases outcome with
    | error e' => rw [h.unique haccounts]
    | ok p => exact absurd h.applies (haccounts e)

theorem provision_eq_ok_iff :
    (∃ p, provision o a bind now reg c sealedRequest = .ok p) ↔
      ∀ e, ¬Applies o a bind reg c sealedRequest e := by
  have haccounts := accounts_provision o a bind now reg c sealedRequest
  constructor
  · rintro ⟨p, hp⟩
    rwa [hp] at haccounts
  · intro h
    generalize provision o a bind now reg c sealedRequest = outcome at haccounts ⊢
    cases outcome with
    | error e => exact absurd haccounts.applies (h e)
    | ok p => exact ⟨p, rfl⟩

/-- A refusal on any ground but the last is one whatever the bind would come to. -/
theorem FirstGround.before_bind (h : FirstGround o a bind reg c sealedRequest e)
    (he : e.rank < 6) (bind' : Binder) : FirstGround o a bind' reg c sealedRequest e := by
  -- the bind is asked about by the last ground only
  have hother {bind bind' : Binder} : ∀ e : ProvisionError, e.rank < 6 →
      Applies o a bind reg c sealedRequest e → Applies o a bind' reg c sealedRequest e := by
    intro e he h
    cases e with
    | bind addr cause => exact absurd he (Nat.lt_irrefl 6)
    | _ => exact h
  refine ⟨hother e he h.applies, fun e' he' => ?_⟩
  by_cases hlast : e'.rank < 6
  · exact h.first e' (hother e' hlast he')
  · omega

/-! ## The address -/

/-- A request names a host to listen on, and the options let it. -/
def Options.Follows (o : Options) (q : Request) (host : String) : Prop :=
  o.allowHostOverride = true ∧ q.host = some host ∧ Text.trim host ≠ ""

theorem Options.bindAddr_of_follows {host : String} (h : o.Follows q host) :
    o.bindAddr q = Address.join host q.port := by
  obtain ⟨hallowed, hhost, hnamed⟩ := h
  have hblank : Text.isBlankText host = false := by
    rw [Bool.eq_false_iff, ne_eq, Text.isBlankText_iff]
    exact hnamed
  simp only [Options.bindAddr, Options.bindHost, hhost, hallowed, hblank, Bool.not_false,
    Bool.and_self, if_true, Address.join_trim]

theorem Options.bindAddr_of_not_follows (h : ∀ host, ¬o.Follows q host) :
    o.bindAddr q = Address.join o.defaultBindHost q.port := by
  unfold Options.bindAddr Options.bindHost
  cases hhost : q.host with
  | none => rfl
  | some host =>
    dsimp only
    split
    · rename_i hgiven
      rw [Bool.and_eq_true, Bool.not_eq_true'] at hgiven
      refine absurd ⟨hgiven.1, hhost, ?_⟩ (h host)
      rw [ne_eq, ← Text.isBlankText_iff, hgiven.2]
      exact Bool.false_ne_true
    · rfl

namespace Run

open Control

variable {r : Run} {l rest : Link}

/-! ## What a decision leaves -/

theorem setLink_setLink (r : Run) (c : ConnId) (l l' : Link) :
    (r.setLink c l).setLink c l' = r.setLink c l' := by
  unfold setLink
  simp only [List.map_map]
  congr 1
  apply List.map_congr_left
  intro k _
  by_cases hk : k.id = c
  · simp only [Function.comp_apply, if_pos hk]
  · simp only [Function.comp_apply, if_neg hk]

theorem emit_of_link? (hl : r.link? c = some l) (m : Message) :
    (r.emit c m).1 = r.setLink c (l.emitted m) := by
  rw [emit, hl]
  rfl

/-- The connections of a server but one. -/
def connectionsBut (r : Run) (c : ConnId) : List Connection := r.connections.filter (·.id ≠ c)

theorem connectionsBut_setLink (r : Run) (c : ConnId) (l : Link) :
    (r.setLink c l).connectionsBut c = r.connectionsBut c := by
  unfold connectionsBut setLink
  induction r.connections with
  | nil => rfl
  | cons k ks ih =>
    rw [List.map_cons]
    by_cases hk : k.id = c
    · rw [if_pos hk, List.filter_cons_of_neg (by simpa using hk),
        List.filter_cons_of_neg (by simpa using hk), ih]
    · rw [if_neg hk, List.filter_cons_of_pos (by simpa using hk),
        List.filter_cons_of_pos (by simpa using hk), ih]

/-- What the count of failures has come to, from given readings, with the effects given. -/
def failuresAfter (ms : Metrics) (fx : List Effect) : Int :=
  (ms.addAll (fx.filterMap Effect.count?)).total .provisionFailures

section

variable (hl : r.link? c = some l) (htake : l.take? = some (.openDataPort sealedRequest, rest))
include hl htake

/-- A refusal puts its answer on the link, closes it, and counts one failure. -/
theorem handle_of_refusal (hp : provision r.options a bind r.now r.registry c sealedRequest = .error e) :
    (r.handle a bind c).1 = r.setLink c (rest.emitted (refused e)).close ∧
      ∀ ms, failuresAfter ms (r.handle a bind c).2 = ms.total .provisionFailures + 1 := by
  have hreact : react r.options a bind r.now r.registry c (.openDataPort sealedRequest) =
      (r.registry, [.count ⟨.provisionFailures, 1⟩, .emit (refused e), .close]) := by
    simp only [react, onOpenDataPort, hp]
  have htaken : (r.setLink c rest).link? c = some rest := by
    rw [link?_setLink, if_pos rfl, hl]
    rfl
  have hanswered : ((r.setLink c rest).emit c (refused e)).1.link? c =
      some (rest.emitted (refused e)) := by
    rw [emit_of_link? htaken, link?_setLink, if_pos rfl, htaken]
    rfl
  rw [handle_eq a bind hl htake, hreact]
  refine ⟨?_, fun ms => ?_⟩
  · show (((r.setLink c rest).emit c (refused e)).1.perform c .close).1 = _
    simp only [perform, hanswered]
    rw [emit_of_link? htaken, setLink_setLink, setLink_setLink]
  · have hclose : (((r.setLink c rest).emit c (refused e)).1.perform c .close).2 = [] := by
      simp only [perform, hanswered]
    have heffects : (performAll c (r.setLink c rest)
        [.count ⟨.provisionFailures, 1⟩, .emit (refused e), .close]).2 =
          .count ⟨.provisionFailures, 1⟩ :: ((r.setLink c rest).emit c (refused e)).2 := by
      show .count _ :: (((r.setLink c rest).emit c (refused e)).2 ++
        ((((r.setLink c rest).emit c (refused e)).1.perform c .close).2 ++ [])) = _
      rw [hclose]
      simp
    show failuresAfter ms (performAll c (r.setLink c rest) _).2 = _
    rw [heffects, failuresAfter, Metrics.total_addAll]
    show _ + (1 + Metrics.added .provisionFailures _) = _
    rw [added_emit (k := .provisionFailures) (by decide)]
    rfl

/-- A grant puts its answer on the link and adds one entry and one listener. -/
theorem handle_of_grant (hp : provision r.options a bind r.now r.registry c sealedRequest = .ok p) :
    (r.handle a bind c).1 =
        { r.setLink c (rest.emitted (granted r.options p.bound.port)) with
          registry := r.registry.register p, proxies := r.proxies ++ [r.newProxy p] } ∧
      ∀ ms, failuresAfter ms (r.handle a bind c).2 = ms.total .provisionFailures := by
  have hreact : react r.options a bind r.now r.registry c (.openDataPort sealedRequest) =
      (r.registry.register p, [.emit (granted r.options p.bound.port), .listen p]) := by
    simp only [react, onOpenDataPort, hp]
  have hstarted : p.startedAt = r.now := by
    obtain ⟨q, -, -, hdecided⟩ := valid_of_provision hp
    exact startedAt_of_decided hdecided
  let taken : Run := { r.setLink c rest with registry := r.registry.register p }
  have htaken : taken.link? c = some rest := by
    show (r.setLink c rest).link? c = _
    rw [link?_setLink, if_pos rfl, hl]
    rfl
  rw [handle_eq a bind hl htake, hreact]
  refine ⟨?_, fun ms => ?_⟩
  · show ((taken.emit c _).1.perform c (.listen p)).1 = _
    rw [emit_of_link? htaken]
    have hset := setLink_setLink r c rest (rest.emitted (granted r.options p.bound.port))
    show ({ (r.setLink c rest).setLink c (rest.emitted (granted r.options p.bound.port)) with
      registry := r.registry.register p
      proxies := r.proxies ++ [{ owner := p.owner, table := _, startedAt := r.now }] } : Run) = _
    rw [hset, newProxy, hstarted]
    rfl
  · show failuresAfter ms ((taken.emit c _).2 ++ [.count ⟨.dataProxiesActive, 1⟩]) = _
    rw [failuresAfter, List.filterMap_append, Metrics.total_addAll, Metrics.added_append,
      added_emit (k := .provisionFailures) (by decide)]
    exact Int.add_zero _

end

/-- A request is refused and leaves no trace but its answer, after which the link is closed,
and one more failure. -/
structure RefusedCleanly (a : Seal.Aead) (r : Run) (c : ConnId) (bind : Binder)
    (e : ProvisionError) (rest : Link) : Prop where
  state : (r.handle a bind c).1 = r.setLink c (rest.emitted (refused e)).close
  registry : (r.handle a bind c).1.registry = r.registry
  listeners : (r.handle a bind c).1.proxies = r.proxies
  others : (r.handle a bind c).1.connectionsBut c = r.connectionsBut c
  failures : ∀ ms, failuresAfter ms (r.handle a bind c).2 = ms.total .provisionFailures + 1

/-- A request is granted: one entry and one listener are added, and nothing else changes but
the link, which has the answer. -/
structure GrantedCleanly (a : Seal.Aead) (r : Run) (c : ConnId) (bind : Binder) (p : Registration)
    (rest : Link) : Prop where
  state : (r.handle a bind c).1 =
    { r.setLink c (rest.emitted (granted r.options p.bound.port)) with
      registry := r.registry.register p, proxies := r.proxies ++ [r.newProxy p] }
  authenticated : (r.handle a bind c).1.registry.authenticated = r.registry.authenticated
  registered : (r.handle a bind c).1.registry.proxies = r.registry.proxies ++ [p]
  others : (r.handle a bind c).1.connectionsBut c = r.connectionsBut c
  failures : ∀ ms, failuresAfter ms (r.handle a bind c).2 = ms.total .provisionFailures

/-- Whatever the state of a server, a request for a public port comes to the first ground for
refusing it that applies, of which there is at most one, and is granted if there is none. A
refusal leaves no trace, and on every ground but a failed bind it does not depend on the bind.
A grant adds one entry, for the connection and the trimmed name. The address that is bound has
the host requested only if the options allow that and it is not blank, and otherwise the
default one. -/
theorem provisioning_is_atomic (a : Seal.Aead) (bind : Binder) (hl : r.link? c = some l)
    (htake : l.take? = some (.openDataPort sealedRequest, rest)) :
    ((∃! e, FirstGround r.options a bind r.registry c sealedRequest e) ∨
        ∀ e, ¬Applies r.options a bind r.registry c sealedRequest e) ∧
      (∀ e, FirstGround r.options a bind r.registry c sealedRequest e →
        RefusedCleanly a r c bind e rest ∧
          (e.rank < 6 → ∀ bind', FirstGround r.options a bind' r.registry c sealedRequest e)) ∧
      ((∀ e, ¬Applies r.options a bind r.registry c sealedRequest e) →
        ∃ q bound, Seal.openRequest a r.options.sealKey sealedRequest = .ok q ∧
          bind (r.options.bindAddr q) = .ok bound ∧
          GrantedCleanly a r c bind
            { owner := c, name := Text.trim q.name, bound, startedAt := r.now } rest) ∧
      ∀ q, (∀ host, r.options.Follows q host →
          r.options.bindAddr q = Address.join host q.port) ∧
        ((∀ host, ¬r.options.Follows q host) →
          r.options.bindAddr q = Address.join r.options.defaultBindHost q.port) := by
  refine ⟨?_, fun e he => ?_, fun hnone => ?_, fun q =>
    ⟨fun host => Options.bindAddr_of_follows, Options.bindAddr_of_not_follows⟩⟩
  · have haccounts := accounts_provision r.options a bind r.now r.registry c sealedRequest
    cases hp : provision r.options a bind r.now r.registry c sealedRequest with
    | error e =>
      rw [hp] at haccounts
      exact .inl ⟨e, haccounts, fun e' he' => he'.unique haccounts⟩
    | ok p =>
      rw [hp] at haccounts
      exact .inr haccounts
  · obtain ⟨hstate, hfailures⟩ := handle_of_refusal hl htake (provision_eq_error_iff.mpr he)
    refine ⟨⟨hstate, ?_, ?_, ?_, hfailures⟩, he.before_bind⟩
    · rw [hstate]
      rfl
    · rw [hstate]
      rfl
    · rw [hstate, connectionsBut_setLink]
  · obtain ⟨p, hp⟩ : ∃ p, provision r.options a bind r.now r.registry c sealedRequest = .ok p :=
      provision_eq_ok_iff.mpr hnone
    obtain ⟨q, hvalid, -, hdecided⟩ := valid_of_provision hp
    obtain ⟨howner, hname⟩ := eq_of_decided hdecided
    have hstarted := startedAt_of_decided hdecided
    obtain ⟨hstate, hfailures⟩ := handle_of_grant hl htake hp
    refine ⟨q, p.bound, hvalid.opens, bind_of_decided hdecided, ?_⟩
    have hentry : { owner := c, name := Text.trim q.name, bound := p.bound, startedAt := r.now } = p := by
      rw [← howner, ← hname, ← hstarted]
    rw [hentry]
    exact ⟨hstate, by rw [hstate]; rfl, by rw [hstate]; rfl,
      by rw [hstate]; exact connectionsBut_setLink r c _, hfailures⟩

/-- Two connections ask for the name web, and only the second one is authenticated. -/
def guestAndMember : Run where
  options := webOptions
  registry := { authenticated := [⟨2⟩] }
  nextConn := 3
  connections := [{ id := ⟨1⟩, link := { inbox := [.openDataPort webSealed] } },
    { id := ⟨2⟩, link := { inbox := [.openDataPort webSealed] } }]

theorem provisioning_is_atomic_guestAndMember :
    RefusedCleanly webCipher guestAndMember ⟨1⟩ bindsAll .unauthenticated {} ∧
      ∃ (q : Request) (bound : Bound), GrantedCleanly webCipher guestAndMember ⟨2⟩ bindsAll
        { owner := ⟨2⟩, name := Text.trim q.name, bound, startedAt := 0 } {} := by
  obtain ⟨-, hrefused, -, -⟩ := provisioning_is_atomic (r := guestAndMember) (c := ⟨1⟩)
    (l := { inbox := [.openDataPort webSealed] }) webCipher bindsAll rfl rfl
  obtain ⟨-, -, hgranted, -⟩ := provisioning_is_atomic (r := guestAndMember) (c := ⟨2⟩)
    (l := { inbox := [.openDataPort webSealed] }) webCipher bindsAll rfl rfl
  have hguest : provision webOptions webCipher bindsAll 0 guestAndMember.registry ⟨1⟩ webSealed =
      .error .unauthenticated := by decide +kernel
  have hmember : provision webOptions webCipher bindsAll 0 guestAndMember.registry ⟨2⟩ webSealed =
      .ok { owner := ⟨2⟩, name := "web", bound := { host := "h", port := 7 }, startedAt := 0 } := by
    decide +kernel
  obtain ⟨q, bound, -, -, hclean⟩ := hgranted (provision_eq_ok_iff.mp ⟨_, hmember⟩)
  exact ⟨(hrefused _ (provision_eq_error_iff.mp hguest)).1, q, bound, hclean⟩

end Run

end ReverseTunnel.Server

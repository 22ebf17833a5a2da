import ReverseTunnel.Proofs.Server.Replies
import ReverseTunnel.Proofs.Server.Teardown

/-!
What a connection gets to know that the server does not trust.

What is proved (`outsiders_learn_nothing`):
1. As long as none of its tokens is accepted, what is seen on a connection is a function of what
   happens on it, of the one token that would be accepted and of whether a rejected token closes
   the connection (`outside`): what is registered, the secret, the key and who else is
   authenticated have no part in it.
2. A request for a public port that does not open, carries another secret or has no name is
   refused in the same words whatever is registered, also to one who is authenticated (`Unfit`).

What is assumed: both servers accept the same tokens, and both close a connection whose token they
reject or both keep it (`Alike`).

What is not said: what an outsider learns from how long an answer takes. Nor is this said of a
request that has nothing wrong with it: whoever has the secret learns whether a name is taken.
-/

namespace ReverseTunnel.Server

open Control
open Session (ConnId IdSource)
open Wire (Message)

/-! ## What happens on one connection -/

/-- What can happen on a connection, as it is seen there. -/
inductive OwnEvent where
  | link (y : LinkEvent)
  /-- The next message that was read is handled. -/
  | handle
  deriving DecidableEq, Repr

/-- What an event is to a connection. -/
def Event.on? (c : ConnId) : Event → Option OwnEvent
  | .link d y => if d = c then some (.link y) else none
  | .handle d _ => if d = c then some .handle else none
  | _ => none

/-- What the far end of a link is shown of what is done there. -/
def shown (ys : List LinkEffect) : List LinkEffect :=
  ys.filter fun
    | .count _ => false
    | .sent _ | .sentEnd => true

/-- What the far end of a connection is shown. -/
def shownOn (c : ConnId) (fx : List Effect) : List LinkEffect := shown (fx.filterMap (Effect.onLink? c))

/-- The events of a course that happen on a connection before a moment. -/
def ownEvents {a : Seal.Aead} {r : Run} (course : Course (Run.step a) r) (c : ConnId) : Nat → List OwnEvent
  | 0 => []
  | n + 1 => ownEvents course c n ++ ((course.happens n).on? c).toList

variable {o o' : Options} {a : Seal.Aead} {bind : Binder} {now : Nat} {reg : Registry} {r : Run}
  {c d : ConnId} {l l' : Link} {m : Message} {e : Event} {x : Run × List Effect} {fx : List Effect}
  {y : OwnEvent} {ys : List LinkEffect}

theorem shownOn_append (fx fx' : List Effect) : shownOn c (fx ++ fx') = shownOn c fx ++ shownOn c fx' := by
  rw [shownOn, List.filterMap_append, shown, List.filter_append]
  rfl

theorem shownOn_of_counts (h : ∀ y, Effect.link c y ∈ fx → ∃ n, y = .count n) : shownOn c fx = [] := by
  rw [shownOn, shown, List.filter_eq_nil_iff]
  intro y hy
  obtain ⟨x, hx, hon⟩ := List.mem_filterMap.mp hy
  cases x with
  | table _ _ | count _ => cases hon
  | link d z =>
    obtain ⟨rfl, rfl⟩ : d = c ∧ z = y := by simpa [Effect.onLink?] using hon
    obtain ⟨n, rfl⟩ := h z hx
    exact Bool.false_ne_true

theorem shownOn_map_self (c : ConnId) (ys : List LinkEffect) : shownOn c (ys.map (.link c)) = shown ys := by
  have hall : Effect.onLink? c ∘ Effect.link c = some := funext fun _ => if_pos rfl
  rw [shownOn, List.filterMap_map, hall, List.filterMap_some]

theorem shownOn_map_other (h : d ≠ c) (ys : List LinkEffect) : shownOn c (ys.map (.link d)) = [] := by
  apply shownOn_of_counts
  intro y hy
  obtain ⟨_, -, heq⟩ := List.mem_map.mp hy
  cases heq
  exact absurd rfl h

/-! ## What is done about an outsider -/

/-- What is done about a message of a connection that is not authenticated, unless it is a
token that is accepted. -/
def turnedAway (o : Options) : Message → List Action
  | .auth _ => .emit (authVerdict false) :: (if o.closeOnAuthFailure then [.close] else [])
  | .heartbeat _ => [.close]
  | .openDataPort _ => [.count ⟨.provisionFailures, 1⟩, .emit (refused .unauthenticated), .close]
  | _ => []

/-- The checks come in an order in which nothing but the token counts before a connection is
authenticated. -/
theorem react_outsider (a : Seal.Aead) (bind : Binder) (now : Nat) (hc : reg.isAuthenticated c = false)
    (hm : (token? m).any o.admits = false) :
    (react o a bind now reg c m).2 = turnedAway o m ∧
      (react o a bind now reg c m).1.isAuthenticated c = false := by
  refine ⟨?_, ?_⟩
  · cases m with
    | auth token =>
      have hrejected : ¬o.admits token = true := by simpa [token?] using hm
      rw [react, onAuth, if_neg hrejected]
      rfl
    | heartbeat timestamp =>
      rw [react, onHeartbeat, hc]
      rfl
    | openDataPort sealedRequest =>
      have hrefused : provision o a bind now reg c sealedRequest = .error .unauthenticated := by
        rw [provision, hc]
        rfl
      rw [react, onOpenDataPort, hrefused]
      rfl
    | _ => rfl
  · rw [(recorded_react o a bind now reg c m).isAuthenticated]
    cases htoken : token? m with
    | none => exact hc
    | some token => simpa [htoken] using hm

/-- What becomes of the link of an outsider, and what its far end is shown; nothing is said
once a token is accepted. -/
def outside (o : Options) (l : Link) : OwnEvent → Option (Link × List LinkEffect)
  | .link y => some ((l.step y).1, shown (l.step y).2)
  | .handle =>
    match l.take? with
    | none => some (l, [])
    | some (m, rest) =>
      if (token? m).any o.admits then none else some (Action.allOnLink rest (turnedAway o m), [])

/-- The same of several events in order. -/
def outsideAll (o : Options) (l : Link) : List OwnEvent → Option (Link × List LinkEffect) :=
  List.foldl (fun seen y => seen.bind fun (l, ys) => (outside o l y).map fun (l', ys') => (l', ys ++ ys'))
    (some (l, []))

theorem outsideAll_snoc (o : Options) (l : Link) (events : List OwnEvent) (y : OwnEvent) :
    outsideAll o l (events ++ [y]) = (outsideAll o l events).bind fun (l, ys) =>
      (outside o l y).map fun (l', ys') => (l', ys ++ ys') := by
  rw [outsideAll, List.foldl_append]
  rfl

/-- Two servers accept the same tokens, and both close a connection whose token they do not accept
or both keep it. All else that they are told may differ. -/
structure Alike (o o' : Options) : Prop where
  token : o'.authToken = o.authToken
  closes : o'.closeOnAuthFailure = o.closeOnAuthFailure

theorem Alike.outside_eq (h : Alike o o') : outside o' = outside o := by
  have hadmits : o'.admits = o.admits := by
    funext token
    rw [Options.admits, Options.admits, h.token]
  have hturned : turnedAway o' = turnedAway o := by
    funext m
    cases m <;> simp only [turnedAway, h.closes]
  funext l y
  cases y with
  | link _ => rfl
  | handle => rw [outside, outside, hadmits, hturned]

theorem Alike.outsideAll_eq (h : Alike o o') (l : Link) (events : List OwnEvent) :
    outsideAll o' l events = outsideAll o l events := by
  rw [outsideAll, h.outside_eq]
  rfl

/-! ## In the course of events -/

namespace Run

/-- A connection is there, is not authenticated and has no proxy. -/
structure Outside (r : Run) (c : ConnId) (l : Link) : Prop where
  link : r.link? c = some l
  unknown : r.registry.isAuthenticated c = false
  bare : r.proxy? c = none

theorem step_of_bare (a : Seal.Aead) (hbare : r.proxy? c = none) (he : e.ofProxy? = some c) :
    r.step a e = (r, []) := by
  cases e with
  | table d te =>
    cases he
    simp only [step, onTable, hbare]
  | sweep d =>
    cases he
    simp only [step, sweep, hbare]
  | wind d =>
    cases he
    simp only [step, wind, hbare]
  | _ => cases he

/-- What happens elsewhere changes nothing for an outsider and shows it nothing. -/
theorem Outside.elsewhere (h : r.Outside c l) (a : Seal.Aead) (he : e.on? c = none) :
    (r.step a e).1.Outside c l ∧ shownOn c (r.step a e).2 = [] := by
  by_cases hproxy : e.ofProxy? = some c
  · rw [step_of_bare a h.bare hproxy]
    exact ⟨h, rfl⟩
  · have habout : e.about? ≠ some c := by
      intro habout
      cases e with
      | link d _ | handle d _ =>
        cases habout
        simp [Event.on?] at he
      | table _ _ | sweep _ | wind _ => exact hproxy habout
      | connect _ | advance _ => cases habout
    have ht := turn a r e
    generalize r.step a e = x at ht ⊢
    obtain ⟨hauth, -, hown⟩ := ht.apart habout
    refine ⟨⟨?_, hauth.trans h.unknown, hown.trans h.bare⟩, ?_⟩
    · obtain ⟨-, hsame | ⟨hnone, -⟩⟩ := link?_elsewhere (k := {}) ht habout
      · exact hsame.trans h.link
      · cases hnone.symm.trans h.link
    · cases ht with
      | connects => rfl
      | rests _ _ _ hc => exact shownOn_of_counts ((hc c).quiet c)
      | moves d y _ _ _ _ => exact shownOn_map_other (fun hd => habout (congrArg some hd)) _
      | handles _ _ _ _ _ _ _ _ hc => exact shownOn_of_counts (hc.quiet c)
      | announces _ _ _ _ _ hc => exact shownOn_of_counts (hc.quiet c)

theorem Outside.moves (h : r.Outside c l) (a : Seal.Aead) (y : LinkEvent) :
    (r.step a (.link c y)).1.Outside c (l.step y).1 ∧
      shownOn c (r.step a (.link c y)).2 = shown (l.step y).2 := by
  rw [step, onLink_of_link? y h.link]
  refine ⟨?_, shownOn_map_self c _⟩
  have hlink : (r.setLink c (l.step y).1).link? c = some (l.step y).1 := by
    rw [link?_setLink, if_pos rfl, h.link]
    rfl
  dsimp only
  split
  · refine ⟨hlink, ?_, ?_⟩
    · show (r.registry.dismiss c).isAuthenticated c = false
      rw [Registry.isAuthenticated_dismiss]
      simp
    · rw [disconnect, proxy?_changeProxy (f := fun p => { p with stopped := true }) _ _ _ fun _ => rfl,
        if_pos rfl]
      exact congrArg (Option.map _) h.bare
  · exact ⟨hlink, h.unknown, h.bare⟩

theorem proxies_of_turnedAway (r : Run) (c : ConnId) (m : Message) :
    (performAll c r (turnedAway o m)).1.proxies = r.proxies := by
  have hemit : ∀ (r : Run) (m : Message), (r.emit c m).1.proxies = r.proxies := by
    intro r m
    unfold emit
    split <;> rfl
  have hclose : ∀ r : Run, (r.perform c .close).1.proxies = r.proxies := by
    intro r
    unfold perform
    dsimp only
    split <;> rfl
  cases m with
  | auth token =>
    rw [turnedAway]
    split
    · exact (hclose _).trans (hemit _ _)
    · exact hemit _ _
  | heartbeat timestamp => exact hclose _
  | openDataPort sealedRequest => exact (hclose _).trans (hemit _ _)
  | _ => rfl

theorem Outside.handles (h : r.Outside c l) (a : Seal.Aead) (bind : Binder) {rest : Link}
    (ht : l.take? = some (m, rest)) (hm : (token? m).any r.options.admits = false) :
    (r.step a (.handle c bind)).1.Outside c (Action.allOnLink rest (turnedAway r.options m)) ∧
      shownOn c (r.step a (.handle c bind)).2 = [] := by
  obtain ⟨hactions, hunknown⟩ := react_outsider a bind r.now h.unknown hm
  have hc := confined_handle a bind h.link ht
  refine ⟨⟨?_, ?_, ?_⟩, shownOn_of_counts (hc.quiet c)⟩
  · rw [step, hc.own, h.link, hactions]
    rfl
  · rw [step, hc.registry]
    exact hunknown
  · have hbind : (r.link? c).bind Link.take? = some (m, rest) := by rw [h.link, Option.bind_some, ht]
    have hproxies : (r.handle a bind c).1.proxies = r.proxies := by
      rw [handle, hbind]
      dsimp only
      rw [hactions]
      exact proxies_of_turnedAway _ c m
    rw [step, proxy?, hproxies]
    exact h.bare

/-- An event leaves an outsider an outsider, unless a token is accepted with it. -/
theorem Outside.step (h : r.Outside c l) (a : Seal.Aead) (he : e.on? c = some y) :
    (outside r.options l y = none ↔
      ∃ token, .auth token ∈ r.handledOn c e ∧ r.options.admits token = true) ∧
    ∀ l' ys, outside r.options l y = some (l', ys) →
      (r.step a e).1.Outside c l' ∧ shownOn c (r.step a e).2 = ys := by
  cases e with
  | link d z =>
    obtain ⟨rfl, rfl⟩ : d = c ∧ OwnEvent.link z = y := by simpa [Event.on?] using he
    refine ⟨by simp [outside, handledOn], ?_⟩
    rintro l' ys ⟨⟩
    exact h.moves a z
  | handle d bind =>
    obtain ⟨rfl, rfl⟩ : d = c ∧ OwnEvent.handle = y := by simpa [Event.on?] using he
    cases ht : l.take? with
    | none =>
      have hidle : (r.link? d).bind Link.take? = none := by rw [h.link, Option.bind_some, ht]
      refine ⟨by simp [outside, ht, handledOn, hidle], ?_⟩
      simp only [outside, ht, Option.some.injEq, Prod.mk.injEq]
      rintro l' ys ⟨rfl, rfl⟩
      rw [Run.step, handle, hidle]
      exact ⟨h, rfl⟩
    | some taken =>
      obtain ⟨m, rest⟩ := taken
      have hnext : (r.link? d).bind Link.take? = some (m, rest) := by rw [h.link, Option.bind_some, ht]
      cases hm : (token? m).any r.options.admits with
      | true =>
        refine ⟨?_, by simp [outside, ht, hm]⟩
        cases m with
        | auth token =>
          have hadmits : r.options.admits token = true := by simpa [token?] using hm
          simp [outside, ht, token?, handledOn, hnext, hadmits]
        | _ => cases hm
      | false =>
        refine ⟨?_, ?_⟩
        · simp only [outside, ht, hm, handledOn, hnext]
          simp only [Bool.false_eq_true, if_false, reduceCtorEq, if_true, Option.map_some,
            Option.toList_some, List.mem_singleton, false_iff, not_exists, not_and]
          rintro token rfl
          simpa [token?] using hm
        · simp only [outside, ht, hm, Bool.false_eq_true, if_false, Option.some.injEq, Prod.mk.injEq]
          rintro l' ys ⟨rfl, rfl⟩
          exact h.handles a bind ht hm
  | _ => cases he

section Moments

variable {r r' : Run} {c c' : ConnId} {a a' : Seal.Aead}

/-- No token of a connection was accepted before a moment. -/
def Unheard (course : Course (step a) r) (c : ConnId) (n : Nat) : Prop :=
  ∀ k, k < n → ∀ token, .auth token ∈ (course.state k).handledOn c (course.happens k) →
    r.options.admits token = false

theorem options_kept (course : Course (step a) r) (n : Nat) : (course.state n).options = r.options :=
  course.always (P := fun r' => r'.options = r.options) rfl
    (fun r' e h => (turn a r' e).options.trans h) n

theorem outside_run (course : Course (step a) r) (h : r.Outside c l) : ∀ n l' ys,
    outsideAll r.options l (ownEvents course c n) = some (l', ys) →
    (course.state n).Outside c l' ∧ shownOn c (course.effects n) = ys
  | 0, l', ys, hsome => by
    obtain ⟨rfl, rfl⟩ : l = l' ∧ [] = ys := by simpa [ownEvents, outsideAll] using hsome
    exact ⟨h, rfl⟩
  | n + 1, l', ys, hsome => by
    rw [ownEvents] at hsome
    show ((course.state n).step a (course.happens n)).1.Outside c l' ∧
      shownOn c (course.effects n ++ ((course.state n).step a (course.happens n)).2) = ys
    rw [shownOn_append]
    cases hon : (course.happens n).on? c with
    | none =>
      rw [hon, Option.toList_none, List.append_nil] at hsome
      obtain ⟨hn, hshown⟩ := outside_run course h n l' ys hsome
      obtain ⟨hnext, hnone⟩ := hn.elsewhere a hon
      exact ⟨hnext, by rw [hshown, hnone, List.append_nil]⟩
    | some y =>
      rw [hon, Option.toList_some, outsideAll_snoc, Option.bind_eq_some_iff] at hsome
      obtain ⟨⟨k, zs⟩, hbefore, hstep⟩ := hsome
      obtain ⟨⟨k', zs'⟩, hout, heq⟩ := Option.map_eq_some_iff.mp hstep
      obtain ⟨rfl, rfl⟩ : k' = l' ∧ zs ++ zs' = ys := by simpa using heq
      obtain ⟨hn, hshown⟩ := outside_run course h n k zs hbefore
      rw [← options_kept course n] at hout
      obtain ⟨hnext, hadded⟩ := (hn.step a hon).2 k' zs' hout
      exact ⟨hnext, by rw [hshown, hadded]⟩

/-- Something is said of an outsider as long as no token of it is accepted. -/
theorem outside_of_unheard (course : Course (step a) r) (h : r.Outside c l) : ∀ n,
    Unheard course c n → ∃ l' ys, outsideAll r.options l (ownEvents course c n) = some (l', ys)
  | 0, _ => ⟨l, [], rfl⟩
  | n + 1, hunheard => by
    obtain ⟨k, zs, hbefore⟩ := outside_of_unheard course h n fun j hj => hunheard j (Nat.lt_succ_of_lt hj)
    rw [ownEvents]
    cases hon : (course.happens n).on? c with
    | none =>
      rw [Option.toList_none, List.append_nil]
      exact ⟨k, zs, hbefore⟩
    | some y =>
      obtain ⟨hn, -⟩ := outside_run course h n k zs hbefore
      obtain ⟨hnone, -⟩ := hn.step a hon
      rw [options_kept course n] at hnone
      cases hout : outside r.options k y with
      | none =>
        obtain ⟨token, hhandled, hadmits⟩ := hnone.mp hout
        exact absurd hadmits (by simp [hunheard n (Nat.lt_succ_self n) token hhandled])
      | some next =>
        refine ⟨next.1, zs ++ next.2, ?_⟩
        rw [Option.toList_some, outsideAll_snoc, hbefore, Option.bind_some]
        dsimp only
        rw [hout]
        rfl

theorem outside_of_new {o : Options} {ids : IdSource} (course : Course (step a) (start o ids)) {n : Nat}
    {peer : Option String} (he : course.happens n = .connect peer)
    (hnew : (course.state n).link? c = none) (hcame : (course.state (n + 1)).link? c = some l) :
    (course.state (n + 1)).Outside c {} := by
  have horderly := orderly course n
  have hunknown : (course.state n).registry.knows c = false := by
    rw [Bool.eq_false_iff]
    intro hknown
    obtain ⟨l, hl, -⟩ := horderly.known c hknown
    cases hnew.symm.trans hl
  have hbare : (course.state n).proxy? c = none := by
    cases hp : (course.state n).proxy? c with
    | none => rfl
    | some p =>
      obtain ⟨hmem, rfl⟩ := mem_of_proxy? hp
      have hm := matched course n
      cases hs : p.stopped with
      | true =>
        obtain ⟨l, hl, -⟩ := (hm.fits p hmem).stopped hs
        cases hnew.symm.trans hl
      | false =>
        have howns := hm.owns hmem hs
        simp [Registry.knows, howns] at hunknown
  have hstep : course.state (n + 1) = (course.state n).connect peer := course.state_succ he
  rw [hstep] at hcame ⊢
  refine ⟨?_, ?_, hbare⟩
  · rw [link?_connect, hnew, Option.none_or] at hcame ⊢
    split at hcame
    · rename_i h
      rw [if_pos h]
    · cases hcame
  · have hneither : (course.state n).registry.isAuthenticated c = false ∧
        (course.state n).registry.owns c = false := by simpa [Registry.knows] using hunknown
    exact hneither.1

end Moments

/-! ## What a request shows that is refused for itself -/

end Run

/-- There is something wrong with a request that has nothing to do with what is registered. -/
inductive Unfit (o : Options) (a : Seal.Aead) (sealedRequest : Bytes) : ProvisionError → Prop
  | sealed (error : Seal.SealError) (h : Seal.openRequest a o.sealKey sealedRequest = .error error) :
      Unfit o a sealedRequest (.sealed error)
  | secret (q : Wire.Request) (h : Seal.openRequest a o.sealKey sealedRequest = .ok q)
      (hsecret : q.secret ≠ o.secret) : Unfit o a sealedRequest .wrongSecret
  | nameless (q : Wire.Request) (h : Seal.openRequest a o.sealKey sealedRequest = .ok q)
      (hsecret : q.secret = o.secret) (hname : Text.trim q.name = "") : Unfit o a sealedRequest .emptyName

variable {sealedRequest : Bytes} {error : ProvisionError}

/-- What is wrong with a request for itself is what it is refused for. -/
theorem provision_of_unfit (hauth : reg.isAuthenticated c = true) (h : Unfit o a sealedRequest error) :
    provision o a bind now reg c sealedRequest = .error error := by
  unfold provision
  rw [if_neg (by simp [hauth])]
  cases h with
  | sealed error h => rw [h]
  | secret q h hsecret =>
    rw [h]
    exact if_pos hsecret
  | nameless q h hsecret hname =>
    rw [h]
    dsimp only
    rw [if_neg (not_not_intro hsecret), if_pos hname]

theorem Run.effects_refusing (hl : r.link? c = some l) (n : Count) (m : Message) :
    (Run.performAll c r [.count n, .emit m, .close]).2 = .count n :: (l.emit m).2.2.map (.link c) := by
  have hcloses : ∀ r' : Run, (r'.perform c .close).2 = [] := by
    intro r'
    unfold perform
    dsimp only
    split <;> rfl
  have hemits : (r.emit c m).2 = (l.emit m).2.2.map (.link c) := by rw [emit, hl]
  simp only [performAll, hcloses]
  simp only [perform, hemits, List.append_nil]
  rfl

theorem Run.handle_of_unfit (bind : Binder) {rest : Link} (hl : r.link? c = some l)
    (ht : l.take? = some (.openDataPort sealedRequest, rest)) (hauth : r.registry.isAuthenticated c = true)
    (h : Unfit r.options a sealedRequest error) :
    (r.handle a bind c).1.link? c = some (rest.emitted (refused error)).close ∧
      (r.handle a bind c).2 =
        .count ⟨.provisionFailures, 1⟩ :: (rest.emit (refused error)).2.2.map (.link c) := by
  have hreact : react r.options a bind r.now r.registry c (.openDataPort sealedRequest) =
      (r.registry, [.count ⟨.provisionFailures, 1⟩, .emit (refused error), .close]) := by
    rw [react, onOpenDataPort, provision_of_unfit hauth h]
  have hnext : (r.link? c).bind Link.take? = some (.openDataPort sealedRequest, rest) := by
    rw [hl, Option.bind_some, ht]
  have htaken : (r.setLink c rest).link? c = some rest := by
    rw [link?_setLink, if_pos rfl, hl]
    rfl
  refine ⟨?_, ?_⟩
  · rw [(confined_handle a bind hl ht).own, hl, hreact]
    rfl
  · rw [handle, hnext]
    dsimp only
    rw [hreact]
    exact effects_refusing htaken _ _

/-! ## Two servers -/

/-- Who has just come in is an outsider. Two servers that accept the same tokens, and do the same
with a connection whose token they do not accept, show an outsider the same as long as none of its
tokens is accepted: whatever is registered with either, whatever their secrets, keys and ciphers
are, whoever else is authenticated and whatever happens elsewhere. And one who is authenticated and
sends a request that does not open, carries another secret or has no name learns nothing from the
answer about what is registered. -/
theorem outsiders_learn_nothing :
    (∀ {a : Seal.Aead} {o : Options} {ids : IdSource} (course : Course (Run.step a) (Run.start o ids))
        (n : Nat) (peer : Option String) (c : ConnId) (l : Link), course.happens n = .connect peer →
      (course.state n).link? c = none → (course.state (n + 1)).link? c = some l →
      (course.state (n + 1)).Outside c {}) ∧
    (∀ {a a' : Seal.Aead} {r r' : Run} {c c' : ConnId} {l : Link} (course : Course (Run.step a) r)
        (course' : Course (Run.step a') r') (n n' : Nat), Alike r.options r'.options →
      r.Outside c l → r'.Outside c' l → ownEvents course' c' n' = ownEvents course c n →
      Run.Unheard course c n →
      (course'.state n').link? c' = (course.state n).link? c ∧
        shownOn c' (course'.effects n') = shownOn c (course.effects n)) ∧
    ∀ {a : Seal.Aead} {r r' : Run} {c : ConnId} {l rest : Link} {sealedRequest : Bytes}
      {error : ProvisionError} (bind bind' : Binder), r'.options = r.options →
      r.registry.isAuthenticated c = true → r'.registry.isAuthenticated c = true →
      r.link? c = some l → r'.link? c = some l →
      l.take? = some (.openDataPort sealedRequest, rest) → Unfit r.options a sealedRequest error →
      (r.handle a bind c).1.link? c = some (rest.emitted (refused error)).close ∧
        (r'.handle a bind' c).1.link? c = (r.handle a bind c).1.link? c ∧
        (r'.handle a bind' c).2 = (r.handle a bind c).2 := by
  refine ⟨fun course n peer c l => Run.outside_of_new course, ?_, ?_⟩
  · intro a a' r r' c c' l course course' n n' halike h h' hsame hunheard
    obtain ⟨k, ys, hseen⟩ := Run.outside_of_unheard course h n hunheard
    have hseen' : outsideAll r'.options l (ownEvents course' c' n') = some (k, ys) := by
      rw [halike.outsideAll_eq, hsame]
      exact hseen
    obtain ⟨hn, hshown⟩ := Run.outside_run course h n k ys hseen
    obtain ⟨hn', hshown'⟩ := Run.outside_run course' h' n' k ys hseen'
    exact ⟨hn'.link.trans hn.link.symm, hshown'.trans hshown.symm⟩
  · intro a r r' c l rest sealedRequest error bind bind' hoptions hauth hauth' hl hl' ht hunfit
    obtain ⟨hlink, heffects⟩ := Run.handle_of_unfit bind hl ht hauth hunfit
    obtain ⟨hlink', heffects'⟩ := Run.handle_of_unfit bind' hl' ht hauth' (hoptions ▸ hunfit)
    exact ⟨hlink, hlink'.trans hlink.symm, heffects'.trans heffects.symm⟩

/-- A server with a registered proxy and an authenticated connection. -/
def busyServer : Run where
  options := { Run.webOptions with authToken := "t", closeOnAuthFailure := false }
  registry := ⟨[⟨1⟩], [⟨⟨1⟩, "web", { host := "h", port := 7 }, 0⟩]⟩
  nextConn := 3
  connections := [{ id := ⟨1⟩ }, { id := ⟨2⟩ }]
  proxies := [{ owner := ⟨1⟩, table := { judgeDelay := 500 }, startedAt := 0 }]

/-- A server that knows nobody, with another secret and another key. -/
def idleServer : Run where
  options := { busyServer.options with secret := "z", key := "k" }
  nextConn := 2
  connections := [{ id := ⟨1⟩ }]

/-- A connection presents another token and asks for a public port nonetheless; it is answered
and told that nothing more comes. -/
def probes (c : ConnId) : List Event :=
  let token := Message.auth "u"
  let request := Message.openDataPort Run.webSealed
  [.link c (.receive (Wire.Frame.write token.kind.code token.body ++
      Wire.Frame.write request.kind.code request.body)),
    .link c .read, .link c .read, .handle c Run.bindsAll, .handle c Run.bindsAll,
    .link c .beginFrame, .link c (.transmit 99), .link c .beginFrame, .link c (.transmit 99),
    .link c .endWriting]

def probesBusy : Course (Run.step Run.webCipher) busyServer := .of (probes ⟨2⟩) (.advance 0)

def probesIdle : Course (Run.step Run.webCipher) idleServer :=
  .of (.advance 7 :: probes ⟨1⟩) (.advance 0)

/-- The same connection, authenticated and with a request that is too short to be opened. -/
def asksInVain (r : Run) : Run :=
  { r with
    registry := { r.registry with authenticated := [⟨1⟩] }
    connections := [{ id := ⟨1⟩, link := { inbox := [.openDataPort [1, 2, 3]] } }] }

/-- One connection comes in. -/
def oneComes : Course (Run.step Run.webCipher) (Run.start Run.webOptions .fresh) :=
  .of [.connect none] (.advance 0)

theorem outsiders_learn_nothing_probes :
    (oneComes.state 1).Outside ⟨1⟩ {} ∧
    shownOn ⟨2⟩ (probesBusy.effects 10) =
      [.sent (Wire.Frame.write (authVerdict false).kind.code (authVerdict false).body),
        .sent (Wire.Frame.write (refused .unauthenticated).kind.code (refused .unauthenticated).body),
        .sentEnd] ∧
    (probesIdle.state 11).link? ⟨1⟩ = (probesBusy.state 10).link? ⟨2⟩ ∧
    shownOn ⟨1⟩ (probesIdle.effects 11) = shownOn ⟨2⟩ (probesBusy.effects 10) ∧
    ((asksInVain busyServer).handle Run.webCipher Run.bindsAll ⟨1⟩).1.link? ⟨1⟩ =
      some { outbox := [refused (.sealed .truncated)], closed := true } ∧
    ((asksInVain { busyServer with registry := {}, proxies := [] }).handle Run.webCipher Run.bindsAll
        ⟨1⟩).1.link? ⟨1⟩ =
      ((asksInVain busyServer).handle Run.webCipher Run.bindsAll ⟨1⟩).1.link? ⟨1⟩ := by
  obtain ⟨hnew, hunheard, hunfit⟩ := outsiders_learn_nothing
  have hhandled : ∀ k, k < 10 → ∀ m ∈ (probesBusy.state k).handledOn ⟨2⟩ (probesBusy.happens k),
      m = .auth "u" ∨ m = .openDataPort Run.webSealed := by decide +kernel
  have hrejected : Run.Unheard probesBusy ⟨2⟩ 10 := by
    intro k hk token hm
    obtain hauth | hasks := hhandled k hk _ hm
    · cases hauth
      decide +kernel
    · cases hasks
  have hbusy : busyServer.Outside ⟨2⟩ {} := ⟨rfl, rfl, rfl⟩
  have hidle : idleServer.Outside ⟨1⟩ {} := ⟨rfl, rfl, rfl⟩
  have hsame : ownEvents probesIdle ⟨1⟩ 11 = ownEvents probesBusy ⟨2⟩ 10 := by decide +kernel
  obtain ⟨hlink, hshown⟩ :=
    hunheard probesBusy probesIdle 10 11 ⟨rfl, rfl⟩ hbusy hidle hsame hrejected
  have htruncated : Unfit busyServer.options Run.webCipher [1, 2, 3] (.sealed .truncated) :=
    .sealed .truncated rfl
  have htakes : ({ inbox := [.openDataPort [1, 2, 3]] } : Link).take? =
      some (.openDataPort [1, 2, 3], {}) := rfl
  have hasks : (asksInVain busyServer).link? ⟨1⟩ = some { inbox := [.openDataPort [1, 2, 3]] } := rfl
  have hasks' : (asksInVain { busyServer with registry := {}, proxies := [] }).link? ⟨1⟩ =
      some { inbox := [.openDataPort [1, 2, 3]] } := rfl
  obtain ⟨hrefused, hsame, -⟩ :=
    hunfit Run.bindsAll Run.bindsAll rfl rfl rfl hasks hasks' htakes htruncated
  exact ⟨hnew oneComes 0 none ⟨1⟩ {} rfl rfl rfl, by decide +kernel, hlink, hshown,
    hrefused.trans (by decide +kernel), hsame⟩

end ReverseTunnel.Server

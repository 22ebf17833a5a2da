import Mathlib.Data.Nat.Find
import ReverseTunnel.Proofs.Server.Ownership

/-!
The registry of a server at every moment, and who gets a name.

What is proved (`registry_is_safe`):
1. Owners and names are each distinct, the names are trimmed and not blank, and every owner is a
   connection that has not finished.
2. What happens on one connection changes nothing that is remembered of another.
3. A name that is free is taken by the first request for it that is valid and whose bind
   succeeds. It stays with the connection that made the request until that connection has
   finished, so that until then every other request for it is refused: of several requests for
   one free name exactly one is granted, in whatever order they are handled.

What is assumed: for the third, that one such request is handled, and that whoever is granted the
name does not finish meanwhile. The first two are said of every course.

What is not said: which of several requests it is, for that depends on their order alone.
-/

namespace ReverseTunnel.Server.Run

open Control
open Session (ConnId IdSource)
open Wire (Frame Message Request)

variable {a : Seal.Aead} {r : Run} {e : Event} {x : Run × List Effect} {c d : ConnId}
  {p : Registration} {q : Request} {bind : Binder} {name : String}

/-! ## Requests and their answers -/

/-- A connection's next message is handled, and it is a request that nothing is wrong
with but, at most, that its name is taken or its address cannot be bound. -/
structure Asks (a : Seal.Aead) (r : Run) (e : Event) (c : ConnId) (q : Request) (bind : Binder)
    (rest : Link) : Prop where
  handled : e = .handle c bind
  valid : ∃ l sealedRequest, r.link? c = some l ∧ l.take? = some (.openDataPort sealedRequest, rest) ∧
    Valid r.options a r.registry c sealedRequest q

/-- A request is granted: its proxy is registered and the answer, which comes next on
the link, says so. -/
structure Grants (a : Seal.Aead) (r : Run) (e : Event) (p : Registration) (rest : Link) : Prop where
  registry : (r.step a e).1.registry = r.registry.register p
  answer : (r.step a e).1.link? p.owner = some (rest.emitted (granted r.options p.bound.port))

theorem Grants.registered {rest : Link} (h : Grants a r e p rest) :
    p ∈ (r.step a e).1.registry.proxies := by
  rw [h.registry]
  exact List.mem_append_right _ (List.mem_singleton.mpr rfl)

/-- A request is refused: nothing that is remembered changes, and the answer, after which
the link is closed, says why. -/
structure Refuses (a : Seal.Aead) (r : Run) (e : Event) (c : ConnId) (error : ProvisionError)
    (rest : Link) : Prop where
  registry : (r.step a e).1.registry = r.registry
  answer : (r.step a e).1.link? c = some (rest.emitted (refused error)).close

theorem grants_of_provision {l rest : Link} {sealedRequest : Bytes} (hl : r.link? c = some l)
    (htake : l.take? = some (.openDataPort sealedRequest, rest))
    (hp : provision r.options a bind r.now r.registry c sealedRequest = .ok p) :
    Grants a r (.handle c bind) p rest := by
  have hconfined := confined_handle a bind hl htake
  simp only [react, onOpenDataPort, hp] at hconfined
  refine ⟨hconfined.registry, ?_⟩
  rw [provision_owner hp]
  exact hconfined.own.trans (by rw [hl]; rfl)

theorem refuses_of_provision {l rest : Link} {sealedRequest : Bytes} {error : ProvisionError}
    (hl : r.link? c = some l) (htake : l.take? = some (.openDataPort sealedRequest, rest))
    (hp : provision r.options a bind r.now r.registry c sealedRequest = .error error) :
    Refuses a r (.handle c bind) c error rest := by
  have hconfined := confined_handle a bind hl htake
  simp only [react, onOpenDataPort, hp] at hconfined
  exact ⟨hconfined.registry, hconfined.own.trans (by rw [hl]; rfl)⟩

variable {rest : Link}

theorem Asks.refused (h : Asks a r e c q bind rest)
    (htaken : r.registry.isTaken (Text.trim q.name) = true) :
    Refuses a r e c (.nameTaken (Text.trim q.name)) rest := by
  obtain ⟨rfl, l, sealedRequest, hl, htake, hvalid⟩ := h
  apply refuses_of_provision hl htake
  rw [provision_of_valid hvalid, if_pos htaken]

theorem Asks.unbound (h : Asks a r e c q bind rest) {cause : String}
    (hfree : r.registry.isTaken (Text.trim q.name) = false)
    (hbind : bind (r.options.bindAddr q) = .error cause) :
    Refuses a r e c (.bind (r.options.bindAddr q) cause) rest := by
  obtain ⟨rfl, l, sealedRequest, hl, htake, hvalid⟩ := h
  apply refuses_of_provision hl htake
  rw [provision_of_valid hvalid, if_neg (by simp [hfree]), decided, hbind]

theorem Asks.granted (h : Asks a r e c q bind rest) {bound : Bound}
    (hfree : r.registry.isTaken (Text.trim q.name) = false)
    (hbind : bind (r.options.bindAddr q) = .ok bound) :
    ∃ p, p.owner = c ∧ p.name = Text.trim q.name ∧ p.bound = bound ∧ Grants a r e p rest := by
  obtain ⟨rfl, l, sealedRequest, hl, htake, hvalid⟩ := h
  refine ⟨{ owner := c, name := Text.trim q.name, bound, startedAt := r.now }, rfl, rfl, rfl, ?_⟩
  apply grants_of_provision hl htake
  rw [provision_of_valid hvalid, if_neg (by simp [hfree]), decided, hbind]

/-! ## How long a name is taken -/

theorem mem_of_isTaken {reg : Registry} (h : reg.isTaken name = true) :
    ∃ p ∈ reg.proxies, p.name = name := by
  obtain ⟨p, hp, hname⟩ := List.any_eq_true.mp h
  exact ⟨p, hp, by simpa using hname⟩

theorem isTaken_of_mem {reg : Registry} (hp : p ∈ reg.proxies) : reg.isTaken p.name = true :=
  List.any_eq_true.mpr ⟨p, hp, by simp⟩

/-- A name that was free is taken by a request for it that was valid and whose bind
succeeded. -/
theorem asks_of_taken (h : Turn a r e x) (hfree : r.registry.isTaken name = false)
    (htaken : x.1.registry.isTaken name = true) :
    ∃ c q bind rest bound, Asks a r e c q bind rest ∧ Text.trim q.name = name ∧
      bind (r.options.bindAddr q) = .ok bound := by
  obtain ⟨p, hp, hname⟩ := mem_of_isTaken htaken
  have hnew : p ∉ r.registry.proxies := fun hold => Registry.isTaken_eq_false hfree p hold hname
  -- a name gets taken by a grant, not by forgetting or authenticating
  rcases h.registry_cases with hkeeps | ⟨c, -, hforgets⟩ | ⟨c, bind, l, rest, m, rfl, hl, htake, hm⟩
  · exact absurd (hkeeps ▸ hp) hnew
  · rw [hforgets] at hp
    exact absurd (List.mem_of_mem_filter hp) hnew
  · generalize x.1.registry = reg at hp hm
    cases hm with
    | admits token =>
      rw [Registry.proxies_authenticate] at hp
      exact absurd hp hnew
    | rejects token => exact absurd hp hnew
    | keeps => exact absurd hp hnew
    | grants sealedRequest granted hgranted =>
      rcases List.mem_append.mp hp with hp | hp
      · exact absurd hp hnew
      · rw [List.mem_singleton] at hp
        subst hp
        obtain ⟨q, hvalid, -, hdecided⟩ := valid_of_provision hgranted
        obtain ⟨-, hpname⟩ := eq_of_decided hdecided
        exact ⟨c, q, bind, rest, p.bound, ⟨rfl, l, sealedRequest, hl, htake, hvalid⟩,
          hpname.symm.trans hname, bind_of_decided hdecided⟩

theorem registered_turn (h : Turn a r e x) (hp : p ∈ r.registry.proxies) :
    p ∈ x.1.registry.proxies ∨ x.1.Finished p.owner := by
  rcases h.registry_cases with hkeeps | ⟨c, hfinished, hforgets⟩ | ⟨c, bind, l, rest, m, -, -, -, hm⟩
  · exact .inl (hkeeps ▸ hp)
  · by_cases howner : p.owner = c
    · exact .inr (howner ▸ hfinished)
    · rw [hforgets]
      exact .inl (List.mem_filter.mpr ⟨hp, by simpa using howner⟩)
  · left
    generalize x.1.registry = reg at hm
    cases hm with
    | admits token =>
      rw [Registry.proxies_authenticate]
      exact hp
    | rejects token => exact hp
    | grants sealedRequest p' hp' => exact List.mem_append_left _ hp
    | keeps => exact hp

/-! ## Contests -/

/-- A valid request for a name is handled; the attempt to bind its address would come to
the given outcome. -/
def Bids (a : Seal.Aead) (r : Run) (e : Event) (c : ConnId) (name : String)
    (outcome : Except String Bound) (rest : Link) : Prop :=
  ∃ q bind, Asks a r e c q bind rest ∧ Text.trim q.name = name ∧
    bind (r.options.bindAddr q) = outcome

variable {o : Options} {ids : IdSource} {course : Course (step a) (start o ids)} {m n w : Nat}

theorem free_until (hmw : m ≤ w) (hfree : (course.state m).registry.isTaken name = false)
    (hno : ∀ k, m ≤ k → k < w → ∀ c bound rest,
      ¬ Bids a (course.state k) (course.happens k) c name (.ok bound) rest) :
    (course.state w).registry.isTaken name = false := by
  induction hmw with
  | refl => exact hfree
  | step hmk ih =>
    rename_i k
    have hk := ih fun j hmj hjk => hno j hmj (Nat.lt_succ_of_lt hjk)
    rw [Bool.eq_false_iff]
    intro htaken
    obtain ⟨c, q, bind, rest, bound, hasks, hname, hbind⟩ :=
      asks_of_taken (turn a (course.state k) (course.happens k)) hk htaken
    exact hno k hmk (Nat.lt_succ_self k) c bound rest ⟨q, bind, hasks, hname, hbind⟩

theorem registered_until {k : Nat} (hwk : w ≤ k) (hkn : k ≤ n)
    (hp : p ∈ (course.state w).registry.proxies) (hstays : (course.state n).Serves p.owner) :
    p ∈ (course.state k).registry.proxies := by
  -- registered or finished is kept by every step, and finished for good
  have heither : p ∈ (course.state k).registry.proxies ∨ (course.state k).Finished p.owner := by
    refine course.from_then_on
      (P := fun r => p ∈ r.registry.proxies ∨ r.Finished p.owner) (fun r e h => ?_) hwk (.inl hp)
    rcases h with h | h
    · exact registered_turn (turn a r e) h
    · exact .inr ((turn a r e).finished h)
  apply heither.resolve_right
  intro hgone
  have hgone' := course.from_then_on (P := fun r => r.Finished p.owner)
    (fun r e h => (turn a r e).finished h) hkn hgone
  exact not_serves_of_finished hgone' hstays

/-- A name that is free at first goes to one of the requests for it, if one of them has a
bind that succeeds and none that the name goes to disconnects. -/
theorem one_winner (hfree : (course.state m).registry.isTaken name = false)
    (hbid : ∃ k c bound rest, m ≤ k ∧ k < n ∧
      Bids a (course.state k) (course.happens k) c name (.ok bound) rest)
    (hstays : ∀ k p rest, m ≤ k → k < n → p.name = name →
      Grants a (course.state k) (course.happens k) p rest → (course.state n).Serves p.owner) :
    ∃ w p rest, m ≤ w ∧ w < n ∧ p.name = name ∧
      Bids a (course.state w) (course.happens w) p.owner name (.ok p.bound) rest ∧
      Grants a (course.state w) (course.happens w) p rest ∧
      ∀ k c outcome rest, m ≤ k → k < n → k ≠ w →
        Bids a (course.state k) (course.happens k) c name outcome rest →
        ∃ error, Refuses a (course.state k) (course.happens k) c error rest := by
  classical
  -- the winner is the first whose bind succeeds
  obtain ⟨w, ⟨c, bound, rest, hmw, hwn, hwins⟩, hfirst⟩ :
      ∃ w, (∃ c bound rest, m ≤ w ∧ w < n ∧
          Bids a (course.state w) (course.happens w) c name (.ok bound) rest) ∧
        ∀ k, k < w → ¬ ∃ c bound rest, m ≤ k ∧ k < n ∧
          Bids a (course.state k) (course.happens k) c name (.ok bound) rest :=
    ⟨Nat.find hbid, Nat.find_spec hbid, fun k hk => Nat.find_min hbid hk⟩
  have hunbound : ∀ k, m ≤ k → k < w → ∀ c bound rest,
      ¬ Bids a (course.state k) (course.happens k) c name (.ok bound) rest :=
    fun k hmk hkw c bound rest hb => hfirst k hkw ⟨c, bound, rest, hmk, by omega, hb⟩
  have hfreeAt : ∀ k, m ≤ k → k ≤ w → (course.state k).registry.isTaken name = false :=
    fun k hmk hkw => free_until hmk hfree fun j hmj hjk => hunbound j hmj (by omega)
  obtain ⟨q, bind, hasks, hname, hbind⟩ := hwins
  obtain ⟨p, rfl, hpname, rfl, hgrants⟩ := hasks.granted (hname ▸ hfreeAt w hmw le_rfl) hbind
  rw [hname] at hpname
  refine ⟨w, p, rest, hmw, hwn, hpname, ⟨q, bind, hasks, hname, hbind⟩, hgrants, ?_⟩
  rintro k c' outcome rest' hmk hkn hkw ⟨q', bind', hasks', hname', -⟩
  rcases Nat.lt_or_gt_of_ne hkw with hkw | hwk
  · -- before the winner, the name is free and binds fail
    have hfreeNow := hfreeAt k hmk (by omega)
    cases hcause : bind' ((course.state k).options.bindAddr q') with
    | ok bound' => exact absurd ⟨q', bind', hasks', hname', hcause⟩ (hunbound k hmk hkw c' bound' rest')
    | error cause => exact ⟨_, hasks'.unbound (hname' ▸ hfreeNow) hcause⟩
  · -- after the winner, the name is the winner's
    have hserves := hstays w p rest hmw hwn hpname hgrants
    have hregistered : p ∈ (course.state (w + 1)).registry.proxies := hgrants.registered
    have hstill := registered_until (Nat.succ_le_of_lt hwk) (Nat.le_of_lt hkn) hregistered hserves
    refine ⟨_, hasks'.refused ?_⟩
    rw [hname', ← hpname]
    exact isTaken_of_mem hstill

/-! ## The registry at every moment -/

/-- At every moment of every course, owners and names of registered proxies are distinct,
the names are trimmed and not blank, and the owners have not finished; nothing that
happens on one connection changes what is remembered of another; and of the valid requests
for a free name exactly one is granted, if the bind of any succeeds and nobody who is
granted the name disconnects meanwhile. -/
theorem registry_is_safe (course : Course (step a) (start o ids)) :
    (∀ n, ((course.state n).registry.proxies.map (·.owner)).Nodup ∧
      ((course.state n).registry.proxies.map (·.name)).Nodup ∧
      ∀ p ∈ (course.state n).registry.proxies,
        p.name ≠ "" ∧ Text.trim p.name = p.name ∧ (course.state n).Serves p.owner) ∧
    (∀ n d, (course.happens n).about? ≠ some d →
      (course.state (n + 1)).registry.isAuthenticated d =
          (course.state n).registry.isAuthenticated d ∧
        (course.state (n + 1)).registry.ownedBy d = (course.state n).registry.ownedBy d ∧
        (course.state (n + 1)).proxy? d = (course.state n).proxy? d) ∧
    ∀ m n name, (course.state m).registry.isTaken name = false →
      (∃ k c bound rest, m ≤ k ∧ k < n ∧
        Bids a (course.state k) (course.happens k) c name (.ok bound) rest) →
      (∀ k p rest, m ≤ k → k < n → p.name = name →
        Grants a (course.state k) (course.happens k) p rest → (course.state n).Serves p.owner) →
      ∃ w p rest, m ≤ w ∧ w < n ∧ p.name = name ∧
        Bids a (course.state w) (course.happens w) p.owner name (.ok p.bound) rest ∧
        Grants a (course.state w) (course.happens w) p rest ∧
        ∀ k c outcome rest, m ≤ k → k < n → k ≠ w →
          Bids a (course.state k) (course.happens k) c name outcome rest →
          ∃ error, Refuses a (course.state k) (course.happens k) c error rest := by
  refine ⟨?_, fun n d hd => (turn a _ _).apart hd, fun m n name => one_winner⟩
  intro n
  have horderly := orderly course n
  refine ⟨horderly.registry.owners, horderly.registry.names, ?_⟩
  intro p hp
  obtain ⟨hname, htrim⟩ := horderly.registry.named p hp
  exact ⟨hname, htrim, horderly.known p.owner (Registry.knows_of_owner hp)⟩

/-- A request for the name web and its sealed form under the secret. -/
def webRequest : Request := { secret := "s", name := "web", host := none, port := 0 }

def webSealed : Bytes :=
  [0, 0, 0, 0, 0, 0, 0, 0, 0, 0, 0, 0, 119, 245, 247, 85, 119, 85, 2, 179, 150, 155, 172, 199,
    254, 109, 201, 212, 148, 52, 183, 169, 180, 212, 0, 64, 161, 205, 90, 218, 128, 49, 231, 176,
    234, 143, 240, 81, 47, 109, 92, 235]

/-- A cipher as far as it is needed here: it opens the one sealed form. -/
def webCipher : Seal.Aead where
  encrypt _ _ plain := plain
  decrypt? _ nonce text := if nonce ++ text = webSealed then some webRequest.payload else none

/-- Everyone is admitted, and the secret is the key. -/
def webOptions : Options where
  listenAddr := ""
  authToken := ""
  secret := "s"
  key := ""
  judgeDelay := 500
  heartbeatDelay := 1000
  unboundTtl := 1000
  allowHostOverride := false
  defaultBindHost := "h"
  closeOnAuthFailure := true

def bindsAll : Binder := fun _ => .ok { host := "h", port := 7 }

/-- A connection comes in, presents a token, and asks for the name web; the token is
handled, and the request is not yet. -/
def comesAndAsks (number : Nat) : List Event :=
  let token := Message.auth ""
  let request := Message.openDataPort webSealed
  [.connect none,
    .link ⟨number⟩ (.receive (Frame.write token.kind.code token.body ++
      Frame.write request.kind.code request.body)),
    .link ⟨number⟩ .read, .link ⟨number⟩ .read, .handle ⟨number⟩ bindsAll]

/-- Two connections ask for one name, and the later one is heard first. -/
def contestOfTwo : Course (step webCipher) (start webOptions .fresh) :=
  .of (comesAndAsks 1 ++ comesAndAsks 2 ++ [.handle ⟨2⟩ bindsAll, .handle ⟨1⟩ bindsAll]) (.advance 0)

theorem bids_contestOfTwo : Bids webCipher (contestOfTwo.state 10) (contestOfTwo.happens 10) ⟨2⟩ "web"
    (.ok { host := "h", port := 7 }) { outbox := [authVerdict true] } := by
  refine ⟨webRequest, bindsAll, ⟨rfl, { inbox := [.openDataPort webSealed], outbox := [authVerdict true] },
    webSealed, ?_, rfl, ?_⟩, ?_, rfl⟩
  · decide +kernel
  · exact ⟨by decide +kernel, by decide +kernel, rfl, by decide +kernel, by decide +kernel⟩
  · decide +kernel

theorem registry_is_safe_contestOfTwo :
    ∃ w p rest, 10 ≤ w ∧ w < 12 ∧ p.name = "web" ∧
      Grants webCipher (contestOfTwo.state w) (contestOfTwo.happens w) p rest ∧
      ∀ k c outcome rest, 10 ≤ k → k < 12 → k ≠ w →
        Bids webCipher (contestOfTwo.state k) (contestOfTwo.happens k) c "web" outcome rest →
        ∃ error, Refuses webCipher (contestOfTwo.state k) (contestOfTwo.happens k) c error rest := by
  obtain ⟨-, -, hcontest⟩ := registry_is_safe contestOfTwo
  have hregistered : ∀ k, 10 ≤ k → k < 12 → ∀ p ∈ (contestOfTwo.state (k + 1)).registry.proxies,
      p.owner = ⟨2⟩ := by
    intro k hk hk'
    obtain rfl | rfl : k = 10 ∨ k = 11 := by omega
    · decide +kernel
    · decide +kernel
  obtain ⟨w, p, rest, hw, hw', hname, -, hgrants, hothers⟩ :=
    hcontest 10 12 "web" (by decide +kernel)
      ⟨10, ⟨2⟩, { host := "h", port := 7 }, _, le_rfl, by omega, bids_contestOfTwo⟩ (by
        intro k p rest hk hk' _ hgrants
        have hp : p ∈ (contestOfTwo.state (k + 1)).registry.proxies := hgrants.registered
        rw [hregistered k hk hk' p hp]
        exact ⟨{ outbox := [authVerdict true, granted webOptions 7] }, by decide +kernel, by decide⟩)
  exact ⟨w, p, rest, hw, hw', hname, hgrants, hothers⟩

end ReverseTunnel.Server.Run

import ReverseTunnel.CommandLine.Startup
import ReverseTunnel.Proofs.Client.Options
import ReverseTunnel.Proofs.Client.Serving
import ReverseTunnel.Proofs.Config.Settings
import ReverseTunnel.Proofs.Seal.Envelope
import ReverseTunnel.Proofs.Server.NameContest
import ReverseTunnel.Proofs.Server.Replies
import ReverseTunnel.Proofs.Wire.Fragments

/-!
A server and a client whose sections match.

What is proved (`matching_configuration_provisions`):
1. The options of either end are those of its settings; the constructors fill in nothing but
   two delays of a client that are zero (`normalize_serverOptions`, `normalize_clientOptions`).
2. What the two ends compare, the token, the secret and the key of sealed requests, is the same
   at both if the sections say the same (`Matching.agree`), whichever of the texts are missing,
   blank or padded. Then nothing is wrong with what the client asks for (`Agree.provisioned`),
   and the server gets to that point on every course of its run (`Agree.served`).

What is assumed: the cipher opens what it encrypted and adds a tag, the nonce is as long as it
should be, and the token and the request fit into frames.

What is not said: that the request is granted. The name may be taken, the bind may fail, and the
connection may own a proxy (`Unlucky`).
-/

namespace ReverseTunnel.CommandLine

open Client (ProxyOptions Session emittedBy)
open Config (ClientSection ClientSettings File ProxySection ProxySettings ServerSection ServerSettings
  Settings filledOr filledOr_eq filledOr_of_blank section_of_rel settings_of_rel trimmedOr)
open Control (Link)
open Server (Binder Registry Run authVerdict decided provision react record)
open Session (ConnId IdSource)
open Wire (Frame Message bytesOf)

variable {f : File} {s : Settings} {ss : ServerSection} {cs : ClientSection} {ps : ProxySection}
  {x : ServerSettings} {y : ClientSettings} {q : ProxySettings}

/-! ## What the constructors make of settings -/

theorem normalize_serverOptions (h : ss.Yields x) : (serverOptions x).normalize = serverOptions x :=
  if_neg (by simp [serverOptions, h.bindHost])

theorem normalize_proxyOptions {serverAddr : String} (h : ps.Yields serverAddr q) :
    (proxyOptions q).normalize? serverAddr = .ok (proxyOptions q) := by
  apply ProxyOptions.normalize?_of_complete (p := proxyOptions q) h.named h.localAddr
  intro hblank
  have hfilled : (proxyOptions q).dataHost = filledOr (Address.hostOf serverAddr) ps.dataHost :=
    h.dataHost
  rw [hfilled] at hblank ⊢
  -- a blank host is the server's already
  exact (filledOr_of_blank hblank).symm

theorem normalize_proxy {serverAddr : String} {given : Option ProxySection}
    {out : Option ProxySettings} (h : Option.Rel (ProxySection.Yields serverAddr) given out) :
    (out.map proxyOptions).mapM (ProxyOptions.normalize? serverAddr) =
      .ok (out.map proxyOptions) := by
  cases h with
  | none => rfl
  | some hq =>
    rw [Option.map_some, Option.mapM_some, normalize_proxyOptions hq]
    rfl

/-- The options of a client with some settings, once it is started. -/
def startedOptions (y : ClientSettings) : Client.Options :=
  { clientOptions y with
    minReconnectDelay := if y.minReconnectDelay = 0 then 1000 else y.minReconnectDelay
    dialTimeout := if y.dialTimeout = 0 then 5000 else y.dialTimeout }

theorem normalize_clientOptions (h : cs.Yields y) :
    (clientOptions y).normalize? = .ok (startedOptions y) := by
  obtain ⟨htrim, haddr⟩ := h.serverAddr
  have hbeat : Client.Options.orDefault 10000 y.heartbeatDelay = y.heartbeatDelay :=
    if_neg (Nat.ne_of_gt (Nat.lt_of_lt_of_le (by decide) h.le_heartbeatDelay))
  have hproxy := normalize_proxy h.proxy
  rw [Client.Options.normalize?_eq]
  simp only [clientOptions, htrim, haddr, if_false, hproxy, hbeat]
  rfl

/-! ## What the two ends compare -/

/-- A server's section and those of a client and its proxy say the same where the two ends
compare, once trimmed; a text that is missing says the same as a blank one. -/
structure Matching (ss : ServerSection) (cs : ClientSection) (ps : ProxySection) : Prop where
  token : trimmedOr ss.authToken = trimmedOr cs.authToken
  secret : Text.trim ss.secret = Text.trim ps.secret
  key : trimmedOr ss.key = trimmedOr ps.key

/-- A client has a server's token, and nothing is wrong with what it asks for. -/
structure Agree (so : Server.Options) (token : String) (p : ProxyOptions) : Prop where
  admits : so.admits token = true
  key : so.sealKey = p.sealKey
  secret : p.request.secret = so.secret
  named : Text.trim p.request.name ≠ ""

theorem Matching.agree (h : Matching ss cs ps) (hx : ss.Yields x) (hy : cs.Yields y)
    {serverAddr : String} (hq : ps.Yields serverAddr q) :
    Agree (serverOptions x) (startedOptions y).authToken (proxyOptions q) := by
  have hsecret : x.secret = q.secret := by rw [hx.secret, hq.secret, h.secret]
  have hkey : x.key = q.key := by
    rw [hx.key, hq.key, filledOr_eq, filledOr_eq, hsecret, h.key]
  have hunder : q.key ≠ "" := hkey ▸ hx.keyed
  refine ⟨?_, ?_, hsecret.symm, ?_⟩
  · have htoken : y.authToken = x.authToken := by rw [hx.token, hy.token, h.token]
    show (_ || y.authToken == x.authToken) = true
    rw [htoken, beq_self_eq_true, Bool.or_true]
  · show (if x.key = "" then x.secret else x.key) = if q.key = "" then q.secret else q.key
    rw [if_neg hx.keyed, if_neg hunder, hkey]
  · show Text.trim q.name ≠ ""
    rw [ne_eq, ← Text.isBlankText_iff, hq.named]
    decide

/-! ## What a client asks for first -/

/-- The sealed request of a client's proxy. -/
def asked (p : ProxyOptions) (a : Seal.Aead) (nonce : Bytes) : Message :=
  .openDataPort (Seal.sealRequest a p.sealKey nonce p.request)

variable {so : Server.Options} {token : String} {p : ProxyOptions} {a : Seal.Aead} {nonce : Bytes}
  {bind : Binder} {now : Nat} {reg : Registry} {c : ConnId}

/-- How long a request is in its sealed form does not depend on its key. -/
theorem length_asked (htag : a.AddsTag) (p : ProxyOptions) (nonce : Bytes) :
    (asked p a nonce).body.length = 1 + (8 + (nonce.length + p.request.fields.length + 17)) := by
  rw [← Seal.length_sealRequest htag p.sealKey, ← Wire.Field.length_writeBytes]
  exact Nat.add_comm _ 1

/-- A request that fits into a frame, sealed, has fields that can be counted. -/
theorem length_of_fits (htag : a.AddsTag) (h : Frame.Fits (asked p a nonce).body) :
    p.request.fields.length < Bytes.capacity 8 := by
  have hlimit : Frame.maxLength < Bytes.capacity 8 := by decide
  rw [Frame.Fits, Frame.totalLength, length_asked htag] at h
  omega

theorem Agree.opens (h : Agree so token p) (hopens : a.Opens) (htag : a.AddsTag)
    (hnonce : nonce.length = Seal.nonceLength) (hfits : Frame.Fits (asked p a nonce).body) :
    Seal.openRequest a so.sealKey (Seal.sealRequest a p.sealKey nonce p.request) = .ok p.request := by
  rw [h.key]
  exact Seal.openRequest_sealRequest hopens htag _ hnonce (length_of_fits htag hfits)

/-- The outcome of a request that opens: only a proxy that the connection owns already, a name
that is taken or a bind that fails is in its way. -/
theorem Agree.provisioned (h : Agree so token p) {sealedRequest : Bytes}
    (hopens : Seal.openRequest a so.sealKey sealedRequest = .ok p.request)
    (hauth : reg.isAuthenticated c = true) :
    provision so a bind now reg c sealedRequest =
      if reg.owns c then .error .alreadyProvisioned
      else if reg.isTaken (Text.trim p.request.name) then .error (.nameTaken (Text.trim p.request.name))
      else decided so bind now c p.request := by
  by_cases howns : reg.owns c = true
  · simp only [provision, hauth, hopens, h.secret, h.named, howns, Bool.not_true,
      Bool.false_eq_true, ne_eq, not_true_eq_false, if_true, if_false]
  · rw [if_neg howns]
    exact Server.provision_of_valid ⟨hauth, hopens, h.secret, h.named, by simpa using howns⟩

theorem Agree.authenticates (h : Agree so token p) (a : Seal.Aead) (bind : Binder) (now : Nat)
    (reg : Registry) (c : ConnId) : react so a bind now reg c (.auth token) =
      (reg.authenticate c, [.emit (authVerdict true)]) := by
  rw [react, Server.onAuth, if_pos h.admits]

/-! ## On every course of the server -/

/-- Why a request that nothing is wrong with can be refused. -/
inductive Unlucky (so : Server.Options) (q : Wire.Request) : Server.ProvisionError → Prop
  | owns : Unlucky so q .alreadyProvisioned
  | taken : Unlucky so q (.nameTaken (Text.trim q.name))
  | bind (cause : String) : Unlucky so q (.bind (so.bindAddr q) cause)

/-- The request is granted under its trimmed name, or refused out of bad luck. -/
theorem Agree.granted_or_unlucky (h : Agree so token p) (bind : Binder) (now : Nat)
    {sealedRequest : Bytes} (hopens : Seal.openRequest a so.sealKey sealedRequest = .ok p.request)
    (hauth : reg.isAuthenticated c = true) :
    (∃ r, provision so a bind now reg c sealedRequest = .ok r ∧ r.owner = c ∧
        r.name = Text.trim p.request.name ∧ bind (so.bindAddr p.request) = .ok r.bound) ∨
      ∃ error, provision so a bind now reg c sealedRequest = .error error ∧
        Unlucky so p.request error := by
  rw [h.provisioned hopens hauth]
  split
  · exact .inr ⟨_, rfl, .owns⟩
  · split
    · exact .inr ⟨_, rfl, .taken⟩
    · cases hd : decided so bind now c p.request with
      | ok r =>
        obtain ⟨howner, hname⟩ := Server.eq_of_decided hd
        exact .inl ⟨r, rfl, howner, hname, Server.bind_of_decided hd⟩
      | error error =>
        refine .inr ⟨error, rfl, ?_⟩
        unfold decided at hd
        split at hd
        · cases hd
          exact .bind _
        · cases hd

variable {ids : IdSource} (course : Course (Run.step a) (Run.start so ids))

/-- At a moment a message is handled on a connection, and its link is as it is without. -/
structure Handles (n : Nat) (c : ConnId) (bind : Binder) (m : Message) (rest : Link) : Prop where
  happens : course.happens n = .handle c bind
  takes : ∃ l, (course.state n).link? c = some l ∧ l.take? = some (m, rest)

variable {course} {n : Nat} {m : Message} {rest : Link}

theorem Handles.next (h : Handles course n c bind m rest) {said : List Message}
    (hfits : ∀ k ∈ said, Frame.Fits k.body) (hheard : (record course c n).heard <+: bytesOf said) :
    (record course c n).handled ++ [m] <+: said := by
  obtain ⟨l, hl, htake⟩ := h.takes
  have hreads := ((Server.kept course c n).reads l hl).take? htake
  obtain ⟨more, hmore⟩ := hheard
  have hcarries := (Wire.Carries.append hreads more).isPrefix
  rw [hmore, Wire.messagesIn_bytesOf hfits] at hcarries
  exact (List.prefix_append _ _).trans hcarries

theorem Handles.authenticated (h : Handles course n c bind m rest)
    (hadmitted : Server.admitted so.normalize (record course c n).handled = true) :
    (course.state n).registry.isAuthenticated c = true := by
  obtain ⟨l, hl, htake⟩ := h.takes
  have hopen := Link.stage_of_take? ((Run.orderly course n).links c l hl) htake
  exact (Server.kept course c n).standing.mpr ⟨⟨l, hl, by simp [hopen]⟩, hadmitted⟩

/-- On a connection on which the client says its token and its request: the first message
that is handled is the token, which authenticates the connection and is answered so; and the
next is the request, which is granted or refused out of bad luck. -/
theorem Agree.served (h : Agree so token p) (hnormal : so.normalize = so)
    (hopens : Seal.openRequest a so.sealKey (Seal.sealRequest a p.sealKey nonce p.request) =
      .ok p.request) {later : List Message}
    (hfits : ∀ k ∈ .auth token :: asked p a nonce :: later, Frame.Fits k.body)
    (hheard : (record course c n).heard <+: bytesOf (.auth token :: asked p a nonce :: later))
    (hhandles : Handles course n c bind m rest) :
    ((record course c n).handled = [] → m = .auth token ∧
      (course.state (n + 1)).registry.isAuthenticated c = true ∧
      (course.state (n + 1)).link? c = some (rest.emitted (authVerdict true))) ∧
    ((record course c n).handled = [.auth token] → m = asked p a nonce ∧
      ((∃ r, r.owner = c ∧ r.name = Text.trim p.request.name ∧
          Run.Grants a (course.state n) (course.happens n) r rest) ∨
        ∃ error, Unlucky so p.request error ∧
          Run.Refuses a (course.state n) (course.happens n) c error rest)) := by
  have hnext := hhandles.next hfits hheard
  obtain ⟨l, hl, htake⟩ := hhandles.takes
  have hoptions : (course.state n).options = so := (Server.options_eq course n).trans hnormal
  have hconfined := Run.confined_handle a bind hl htake
  rw [hoptions] at hconfined
  have hstate : course.state (n + 1) = ((course.state n).handle a bind c).1 :=
    Course.state_succ hhandles.happens
  constructor
  · intro hnone
    obtain rfl : m = .auth token := by
      rw [hnone, List.nil_append, List.prefix_cons_iff] at hnext
      simpa using hnext
    rw [h.authenticates] at hconfined
    refine ⟨rfl, ?_, ?_⟩
    · rw [hstate, hconfined.registry, Registry.isAuthenticated_authenticate, beq_self_eq_true,
        Bool.or_true]
    · rw [hstate, hconfined.own, hl]
      rfl
  · intro hone
    obtain rfl : m = asked p a nonce := by
      rw [hone, List.singleton_append, List.cons_prefix_cons, List.prefix_cons_iff] at hnext
      simpa using hnext
    have hauth := hhandles.authenticated (by
      rw [hone, hnormal]
      exact h.admits)
    rw [hhandles.happens]
    refine ⟨rfl, ?_⟩
    rcases h.granted_or_unlucky bind (course.state n).now hopens hauth with
      ⟨r, hr, howner, hname, -⟩ | ⟨error, herror, hunlucky⟩
    · exact .inl ⟨r, howner, hname,
        Run.grants_of_provision (howner ▸ hl) htake (hoptions.symm ▸ howner ▸ hr)⟩
    · exact .inr ⟨error, hunlucky, Run.refuses_of_provision hl htake (hoptions.symm ▸ herror)⟩

/-! ## From the file to the request -/

/-- What comes of the token and the request of a client at a server, under a cipher and a
nonce. -/
structure Provisions (so : Server.Options) (co : Client.Options) (p : ProxyOptions) (a : Seal.Aead)
    (nonce : Bytes) : Prop where
  /-- The client says its token first, and its request once that is accepted. -/
  spoken : emittedBy (Session.greeting co) = [.auth co.authToken] ∧
    ∀ session : Session, emittedBy (session.handle co a nonce (authVerdict true)).2 = [asked p a nonce]
  accepted : ∀ bind now reg c, react so a bind now reg c (.auth co.authToken) =
    (reg.authenticate c, [.emit (authVerdict true)])
  opens : Seal.openRequest a so.sealKey (Seal.sealRequest a p.sealKey nonce p.request) = .ok p.request
  secret : p.request.secret = so.secret
  named : Text.trim p.request.name ≠ ""
  /-- Only bad luck is in the way of an authenticated connection. -/
  outcome : ∀ bind now reg c, Registry.isAuthenticated reg c = true →
    (∃ r, provision so a bind now reg c (Seal.sealRequest a p.sealKey nonce p.request) = .ok r ∧
        r.owner = c ∧ r.name = Text.trim p.request.name ∧ bind (so.bindAddr p.request) = .ok r.bound) ∨
      ∃ error, provision so a bind now reg c (Seal.sealRequest a p.sealKey nonce p.request) =
        .error error ∧ Unlucky so p.request error
  /-- The server gets to that point on each of its courses, whatever else happens to it. -/
  served : ∀ (ids : IdSource) (course : Course (Run.step a) (Run.start so ids)) (n : Nat) (c : ConnId)
    (bind : Binder) (m : Message) (rest : Link) (later : List Message),
    (∀ k ∈ later, Frame.Fits k.body) →
    (record course c n).heard <+: bytesOf (.auth co.authToken :: asked p a nonce :: later) →
    Handles course n c bind m rest →
    ((record course c n).handled = [] → m = .auth co.authToken ∧
      (course.state (n + 1)).registry.isAuthenticated c = true ∧
      (course.state (n + 1)).link? c = some (rest.emitted (authVerdict true))) ∧
    ((record course c n).handled = [.auth co.authToken] → m = asked p a nonce ∧
      ((∃ r, r.owner = c ∧ r.name = Text.trim p.request.name ∧
          Run.Grants a (course.state n) (course.happens n) r rest) ∨
        ∃ error, Unlucky so p.request error ∧
          Run.Refuses a (course.state n) (course.happens n) c error rest))

/-- Two ends that agree provision, if what the client says fits into frames. -/
theorem Agree.provisions {co : Client.Options} (h : Agree so co.authToken p)
    (hproxy : co.proxy = some p) (hnormal : so.normalize = so) (hopens : a.Opens) (htag : a.AddsTag)
    (hnonce : nonce.length = Seal.nonceLength)
    (hauth : Frame.Fits (Message.auth co.authToken).body)
    (hasked : Frame.Fits (asked p a nonce).body) : Provisions so co p a nonce where
  spoken := by
    refine ⟨rfl, fun session => ?_⟩
    show emittedBy ([_, _] ++ Session.portRequest co a nonce) = _
    rw [Session.portRequest, hproxy]
    rfl
  accepted bind now reg c := h.authenticates a bind now reg c
  opens := h.opens hopens htag hnonce hasked
  secret := h.secret
  named := h.named
  outcome bind now reg c hauthenticated :=
    h.granted_or_unlucky bind now (h.opens hopens htag hnonce hasked) hauthenticated
  served ids course n c bind m rest later hlater hheard hhandles := by
    refine h.served hnormal (h.opens hopens htag hnonce hasked) ?_ hheard hhandles
    rintro k (_ | ⟨_, _ | ⟨_, hk⟩⟩)
    · exact hauth
    · exact hasked
    · exact hlater k hk

/-- Of every file that is accepted: both ends take the options that it comes to as they are
configured, except that a client waits a second for a reconnection and five for a dial where
the file says zero; and if the sections of a server and of a client with a proxy match and
what the client says fits into frames, the client's token is accepted, its request opens to
itself and passes the checks, and it is granted or refused out of bad luck. -/
theorem matching_configuration_provisions (h : f.settings = .ok s) :
    (∀ x, s.server = some x → (serverOptions x).normalize = serverOptions x) ∧
    (∀ y, s.client = some y → (clientOptions y).normalize? = .ok (startedOptions y)) ∧
    ∀ ss cs ps, f.server = some ss → f.client = some cs → cs.proxy = some ps → Matching ss cs ps →
      ∃ x y q, s.server = some x ∧ s.client = some y ∧ y.proxy = some q ∧
        (startedOptions y).proxy = some (proxyOptions q) ∧
        ∀ (a : Seal.Aead) (nonce : Bytes), a.Opens → a.AddsTag → nonce.length = Seal.nonceLength →
          Frame.Fits (Message.auth (startedOptions y).authToken).body →
          Frame.Fits (asked (proxyOptions q) a nonce).body →
          Provisions (serverOptions x) (startedOptions y) (proxyOptions q) a nonce := by
  obtain ⟨hserver, hclient⟩ := File.settled h
  refine ⟨?_, ?_, ?_⟩
  · intro x hx
    obtain ⟨ss, -, hyields⟩ := section_of_rel hserver hx
    exact normalize_serverOptions hyields
  · intro y hy
    obtain ⟨cs, -, hyields⟩ := section_of_rel hclient hy
    exact normalize_clientOptions hyields
  · intro ss cs ps hss hcs hps hmatching
    obtain ⟨x, hsx, hx⟩ := settings_of_rel hserver hss
    obtain ⟨y, hsy, hy⟩ := settings_of_rel hclient hcs
    obtain ⟨q, hyq, hq⟩ := settings_of_rel hy.proxy hps
    have hco : (startedOptions y).proxy = some (proxyOptions q) := congrArg (Option.map proxyOptions) hyq
    refine ⟨x, y, q, hsx, hsy, hyq, hco, ?_⟩
    intro a nonce hopens htag hnonce hauth hasked
    exact (hmatching.agree hx hy hq).provisions hco (normalize_serverOptions hx) hopens htag hnonce
      hauth hasked

/-- A file that says the same for both ends in different ways: a token that is missing here
and blank there, a secret that is padded here, and a key that is missing here and blank
there. -/
def bothEnds : File where
  adminAddr := ""
  logging := none
  server := some {
    listenAddr := none, authToken := none, secret := " s ", key := none, judgeDelay := none
    heartbeatDelay := none, allowHostOverride := false, unboundTtl := none, defaultBindHost := none
    closeOnAuthFailure := true }
  client := some {
    serverAddr := "h:7000", authToken := some " ", minReconnectDelay := some 0
    maxReconnectDelay := none, heartbeatDelay := none, dialTimeout := some 0
    proxy := some {
      name := " web", localAddr := "l:80", remotePort := 0, remoteHost := none, secret := "s"
      key := some " ", dataHost := none } }

/-- The proxy that the client of the file asks for. -/
def webProxy : ProxyOptions where
  name := "web"
  localAddr := "l:80"
  remoteHost := none
  remotePort := 0
  secret := "s"
  key := "s"
  dataHost := "h"

theorem matching_configuration_provisions_bothEnds :
    ∃ s x y, bothEnds.settings = .ok s ∧ s.server = some x ∧ s.client = some y ∧
      (startedOptions y).minReconnectDelay = 1000 ∧ (startedOptions y).dialTimeout = 5000 ∧
      Provisions (serverOptions x) (startedOptions y) webProxy Seal.aes256Gcm
        (List.replicate Seal.nonceLength 0) := by
  obtain ⟨s, hs⟩ : ∃ s, bothEnds.settings = .ok s := ⟨_, rfl⟩
  obtain ⟨x, y, q, hx, hy, hq, -, hprovisions⟩ :=
    (matching_configuration_provisions hs).2.2 _ _ _ rfl rfl rfl ⟨rfl, rfl, rfl⟩
  cases hs
  cases hy
  cases hq
  refine ⟨_, x, _, rfl, hx, rfl, rfl, rfl, ?_⟩
  apply hprovisions _ _ Seal.aes256Gcm_opens Seal.aes256Gcm_addsTag (by decide) (by decide)
  rw [Frame.Fits, Frame.totalLength, length_asked Seal.aes256Gcm_addsTag]
  decide

end ReverseTunnel.CommandLine

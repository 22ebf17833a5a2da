import ReverseTunnel.Proofs.Address
import ReverseTunnel.Proofs.Config.Validation

/-!
Settings that are written back into a file.

What is proved (`settled_when_written_back`): settings are a fixed point of the rules that they
come from, all but one field. Written into a file as they are (`Settings.written`) and read again,
each text, each delay and each section is what it was. A text that was given is trimmed, and so
are the defaults, so that both stay; a delay that 64 bits do not hold is left out, and comes out
of the judging time again. The exception is the host that a proxy takes from the server's address:
nothing trims it, so that it may have blanks around it (`blank_stays_behind_host`), and these go
when it is read again (`Settings.tidied`). What comes out of that second reading stays for good.

What is assumed: the file comes to settings, and for the first reading to give these back, that no
section of it falls back on a host with blanks around it (`File.HostTrimmed`).

What is not said: what the text of a file looks like, which is a matter of its format.
-/

namespace ReverseTunnel.Config

open Outcome (bind_eq_ok rel_of_mapM)

variable {f : File} {s : Settings} {ss : ServerSection} {cs : ClientSection} {ps : ProxySection}
  {x : ServerSettings} {y : ClientSettings} {q : ProxySettings}

/-! ## Settings as a file -/

/-- A delay as a file gives it, where 64 bits hold it. -/
def writtenDelay (ms : Nat) : Option Int64 := if ms < 2 ^ 63 then some (.ofNat ms) else none

def LoggingSettings.written (l : LoggingSettings) : LoggingSection where
  level := some l.level
  format := some l.format
  output := some l.output
  addSource := l.addSource

def ServerSettings.written (x : ServerSettings) : ServerSection where
  listenAddr := some x.listenAddr
  authToken := some x.authToken
  secret := x.secret
  key := some x.key
  judgeDelay := writtenDelay x.judgeDelay
  heartbeatDelay := writtenDelay x.heartbeatDelay
  allowHostOverride := x.allowHostOverride
  unboundTtl := writtenDelay x.unboundTtl
  defaultBindHost := some x.defaultBindHost
  closeOnAuthFailure := x.closeOnAuthFailure

def ProxySettings.written (q : ProxySettings) : ProxySection where
  name := q.name
  localAddr := q.localAddr
  remotePort := q.remotePort
  remoteHost := q.remoteHost
  secret := q.secret
  key := some q.key
  dataHost := some q.dataHost

def ClientSettings.written (y : ClientSettings) : ClientSection where
  serverAddr := y.serverAddr
  authToken := some y.authToken
  minReconnectDelay := writtenDelay y.minReconnectDelay
  maxReconnectDelay := writtenDelay y.maxReconnectDelay
  heartbeatDelay := writtenDelay y.heartbeatDelay
  dialTimeout := writtenDelay y.dialTimeout
  proxy := y.proxy.map ProxySettings.written

/-- The file that says what settings are. -/
def Settings.written (s : Settings) : File where
  adminAddr := s.adminAddr
  logging := some s.logging.written
  server := s.server.map ServerSettings.written
  client := s.client.map ClientSettings.written

/-! ## Texts that are trimmed -/

/-- A text without blanks at either end. -/
def Trimmed (text : String) : Prop := Text.trim text = text

instance (text : String) : Decidable (Trimmed text) := inferInstanceAs (Decidable (_ = _))

theorem trimmed_trim (text : String) : Trimmed (Text.trim text) := Text.trim_trim text

theorem trimmed_trimmedOr (text : Option String) : Trimmed (trimmedOr text) := by
  cases text with
  | none => exact rfl
  | some t => exact trimmed_trim t

theorem trimmed_filledOr {default : String} (h : Trimmed default) (text : Option String) :
    Trimmed (filledOr default text) := by
  rw [filledOr_eq]
  split
  · exact h
  · exact trimmed_trimmedOr text

/-- A text without the blanks around it, unless nothing else is there. -/
def tidied (text : String) : String := if Text.isBlankText text then text else Text.trim text

theorem tidied_of_trimmed {text : String} (h : Trimmed text) : tidied text = text := by
  unfold tidied
  split
  · rfl
  · exact h

theorem tidied_tidied (text : String) : tidied (tidied text) = tidied text := by
  by_cases hblank : Text.isBlankText text = true
  · simp only [tidied, if_pos hblank]
  · apply tidied_of_trimmed
    rw [tidied, if_neg hblank]
    exact trimmed_trim text

/-- What was filled in is filled in again, or its blanks go. -/
theorem filledOr_filledOr (default : String) (text : Option String) :
    filledOr default (some (filledOr default text)) = tidied (filledOr default text) := by
  unfold tidied
  split
  · rename_i hblank
    rw [filledOr_of_blank hblank]
    exact ite_eq_left_iff.mpr fun hfilled => absurd (filledOr_of_blank hblank ▸ hblank) hfilled
  · rename_i hfilled
    exact if_neg hfilled

theorem filledOr_filledOr_of_trimmed {default : String} (h : Trimmed default)
    (text : Option String) :
    filledOr default (some (filledOr default text)) = filledOr default text := by
  rw [filledOr_filledOr, tidied_of_trimmed (trimmed_filledOr h text)]

theorem trimmedOr_trimmedOr (text : Option String) :
    trimmedOr (some (trimmedOr text)) = trimmedOr text :=
  trimmed_trimmedOr text

theorem filter_trim_filter_trim (host : Option String) :
    (((host.map Text.trim).filter (· != "")).map Text.trim).filter (· != "") =
      (host.map Text.trim).filter (· != "") := by
  cases host with
  | none => rfl
  | some h =>
    by_cases hempty : Text.trim h = ""
    · simp [hempty, Option.filter]
    · simp [hempty, Option.filter, Text.trim_trim]

/-! ## Delays -/

theorem delayOr_writtenDelay (default : Nat) {ms : Nat} (h : ms < 2 ^ 63) :
    delayOr default (writtenDelay ms) = ms := by
  rw [writtenDelay, if_pos h]
  simp only [delayOr, Int64.toInt_ofNat_of_lt h, Int.toNat_natCast]

theorem max_delayOr_writtenDelay (default : Nat) {ms least : Nat} (h : ms < 2 ^ 63)
    (hleast : least < 2 ^ 63) :
    max (delayOr default (writtenDelay (max ms least))) least = max ms least := by
  rw [delayOr_writtenDelay default (Nat.max_lt.mpr ⟨h, hleast⟩)]
  omega

theorem ServerSection.effectiveTtl_of_given {ttl : Nat} (hgiven : ss.unboundTtl = some (.ofNat ttl))
    (hpos : 0 < ttl) (hfits : ttl < 2 ^ 63) (judgeDelay : Nat) : ss.effectiveTtl judgeDelay = ttl := by
  have httl : (Int64.ofNat ttl).toInt = ttl := Int64.toInt_ofNat_of_lt hfits
  simp only [effectiveTtl, hgiven, httl, if_pos (Int.natCast_pos.mpr hpos), Int.toNat_natCast]

/-- How long a user may wait is given in 64 bits, or follows from the judging time. -/
theorem ServerSection.effectiveTtl_of_long {judgeDelay : Nat}
    (hlong : 2 ^ 63 ≤ ss.effectiveTtl judgeDelay) : ss.effectiveTtl judgeDelay = judgeDelay * 100 := by
  unfold effectiveTtl at hlong ⊢
  cases hgiven : ss.unboundTtl with
  | none => rfl
  | some ttl =>
    have hlt := ttl.toInt_lt
    simp only [hgiven] at hlong ⊢
    split at hlong
    · omega
    · rename_i hnot
      rw [if_neg hnot]

theorem ServerSection.effectiveTtl_writtenDelay {judgeDelay ttl : Nat}
    (httl : ss.effectiveTtl judgeDelay = ttl) (hpos : 0 < ttl) {again : ServerSection}
    (hwritten : again.unboundTtl = writtenDelay ttl) : again.effectiveTtl judgeDelay = ttl := by
  by_cases hfits : ttl < 2 ^ 63
  · rw [writtenDelay, if_pos hfits] at hwritten
    exact effectiveTtl_of_given hwritten hpos hfits judgeDelay
  · rw [writtenDelay, if_neg hfits] at hwritten
    have hlong : ss.effectiveTtl judgeDelay = judgeDelay * 100 := by
      apply effectiveTtl_of_long
      omega
    have hagain : again.effectiveTtl judgeDelay = judgeDelay * 100 := by
      simp only [effectiveTtl, hwritten]
    rw [hagain, ← hlong, httl]

/-! ## Section by section -/

theorem LoggingSection.settings_written (l : LoggingSection) :
    l.settings.written.settings = l.settings := by
  simp only [settings, LoggingSettings.written,
    filledOr_filledOr_of_trimmed (show Trimmed "info" by decide),
    filledOr_filledOr_of_trimmed (show Trimmed "json" by decide),
    filledOr_filledOr_of_trimmed (show Trimmed "stderr" by decide)]

theorem LoggingSettings.settings_written_standard :
    LoggingSettings.standard.written.settings = .standard := by decide

theorem ServerSection.hosts_of_settings (h : ss.settings = .ok x) :
    x.listenAddr = filledOr ":7000" ss.listenAddr ∧
      x.defaultBindHost = filledOr "0.0.0.0" ss.defaultBindHost := by
  simp only [settings] at h
  split at h
  · cases h
  · split at h
    · cases h
    · split at h
      · cases h
      · cases h
        exact ⟨rfl, rfl⟩

theorem ServerSection.settings_written (h : ss.settings = .ok x) : x.written.settings = .ok x := by
  have hyields := ServerSection.yields h
  obtain ⟨hpos, hlonger⟩ := hyields.judged
  have hjudge : x.judgeDelay < 2 ^ 63 :=
    hyields.judgeDelay ▸ delayOr_lt 300 (by decide) ss.judgeDelay
  have hjudged : delayOr 300 x.written.judgeDelay = x.judgeDelay := delayOr_writtenDelay 300 hjudge
  have httl : x.written.effectiveTtl x.judgeDelay = x.unboundTtl :=
    effectiveTtl_writtenDelay hyields.unboundTtl.symm (Nat.lt_trans hpos hlonger) rfl
  have hheartbeat : max (delayOr 10000 x.written.heartbeatDelay) minHeartbeatDelay =
      x.heartbeatDelay := by
    simp only [ServerSettings.written, hyields.heartbeatDelay]
    exact max_delayOr_writtenDelay 10000 (delayOr_lt 10000 (by decide) _) (by decide)
  have hsecret : Text.trim x.written.secret = x.secret := by
    simp only [ServerSettings.written, hyields.secret, Text.trim_trim]
  have hkey : filledOr x.secret x.written.key = x.key := by
    have hdefault : Trimmed x.secret := hyields.secret ▸ trimmed_trim ss.secret
    simp only [ServerSettings.written, hyields.key]
    exact filledOr_filledOr_of_trimmed hdefault ss.key
  have hlisten : filledOr ":7000" x.written.listenAddr = x.listenAddr := by
    simp only [ServerSettings.written, (hosts_of_settings h).1]
    exact filledOr_filledOr_of_trimmed (by decide) ss.listenAddr
  have hbind : filledOr "0.0.0.0" x.written.defaultBindHost = x.defaultBindHost := by
    simp only [ServerSettings.written, (hosts_of_settings h).2]
    exact filledOr_filledOr_of_trimmed (by decide) ss.defaultBindHost
  have htoken : trimmedOr x.written.authToken = x.authToken := by
    simp only [ServerSettings.written, hyields.token, trimmedOr_trimmedOr]
  simp only [ServerSection.settings, hjudged, httl, hheartbeat, hsecret, hkey, hlisten, hbind, htoken,
    if_neg (Nat.ne_of_gt hpos), if_neg (Nat.not_le_of_lt hlonger), if_neg hyields.keyed]
  rfl

theorem ProxySection.hosts_of_settings {serverAddr : String} (h : ps.settings serverAddr = .ok q) :
    q.localAddr = Text.trim ps.localAddr ∧
      q.remoteHost = (ps.remoteHost.map Text.trim).filter (· != "") := by
  simp only [settings] at h
  split at h
  · cases h
  · split at h
    · cases h
    · cases h
      exact ⟨rfl, rfl⟩

/-- The settings of a proxy without the blanks around the host that it dials. -/
def ProxySettings.tidied (q : ProxySettings) : ProxySettings :=
  { q with dataHost := Config.tidied q.dataHost }

theorem ProxySection.settings_written {serverAddr : String} (h : ps.settings serverAddr = .ok q) :
    q.written.settings serverAddr = .ok q.tidied := by
  have hyields := ProxySection.yields h
  have hname : Text.trim q.name = q.name := hyields.name ▸ Text.trim_trim ps.name
  have hlocal : Text.trim q.localAddr = q.localAddr := by
    rw [(hosts_of_settings h).1, Text.trim_trim]
  have hnamed : q.name ≠ "" := by
    intro hempty
    have := hyields.named
    rw [hempty] at this
    cases this
  have hled : q.localAddr ≠ "" := by
    intro hempty
    have := hyields.localAddr
    rw [hempty] at this
    cases this
  have hhost : (q.remoteHost.map Text.trim).filter (· != "") = q.remoteHost := by
    rw [(hosts_of_settings h).2, filter_trim_filter_trim]
  have hsecret : Text.trim q.secret = q.secret := hyields.secret ▸ Text.trim_trim ps.secret
  have hkey : filledOr q.secret (some q.key) = q.key := by
    rw [hyields.key]
    exact filledOr_filledOr_of_trimmed hsecret ps.key
  have hdata : filledOr (Address.hostOf serverAddr) (some q.dataHost) = Config.tidied q.dataHost := by
    rw [hyields.dataHost, filledOr_filledOr]
  simp only [ProxySection.settings, ProxySettings.written, hname, hlocal, hhost, hsecret, hkey, hdata,
    if_neg hnamed, if_neg hled]
  rfl

/-- The settings of a client without the blanks around the host that its proxy dials. -/
def ClientSettings.tidied (y : ClientSettings) : ClientSettings :=
  { y with proxy := y.proxy.map ProxySettings.tidied }

/-- If each settings that are there are read again from what they are written as, so are those
that may be missing. -/
theorem mapM_written {σ τ : Type} {g g' : σ → Except SettingsError τ} {write : τ → σ} {next : τ → τ}
    (hwritten : ∀ v t, g v = .ok t → g' (write t) = .ok (next t)) {given : Option σ} {out : Option τ}
    (h : given.mapM g = .ok out) : (out.map write).mapM g' = .ok (out.map next) := by
  cases rel_of_mapM hwritten h with
  | none => rfl
  | some hR => rw [Option.map_some, Option.mapM_some, hR]; rfl

theorem ClientSection.parts_of_settings (h : cs.settings = .ok y) :
    y.serverAddr = Text.trim cs.serverAddr ∧
      cs.proxy.mapM (ProxySection.settings y.serverAddr) = .ok y.proxy := by
  rw [settings_eq] at h
  split at h
  · cases h
  · obtain ⟨proxy, hproxy, h⟩ := bind_eq_ok.mp h
    cases h
    exact ⟨rfl, hproxy⟩

theorem ClientSection.settings_written (h : cs.settings = .ok y) :
    y.written.settings = .ok y.tidied := by
  have hyields := ClientSection.yields h
  obtain ⟨haddr, hnamed⟩ := hyields.serverAddr
  have hproxy : y.written.proxy.mapM (ProxySection.settings y.serverAddr) =
      .ok (y.proxy.map ProxySettings.tidied) :=
    mapM_written (fun _ _ => ProxySection.settings_written) (parts_of_settings h).2
  have hmin : delayOr 1000 y.written.minReconnectDelay = y.minReconnectDelay := by
    simp only [ClientSettings.written, hyields.minReconnectDelay]
    exact delayOr_writtenDelay 1000 (delayOr_lt 1000 (by decide) _)
  have hmax : max (delayOr 60000 y.written.maxReconnectDelay) y.minReconnectDelay =
      y.maxReconnectDelay := by
    simp only [ClientSettings.written, hyields.maxReconnectDelay, hyields.minReconnectDelay]
    exact max_delayOr_writtenDelay 60000 (delayOr_lt 60000 (by decide) _)
      (delayOr_lt 1000 (by decide) _)
  have hheartbeat : max (delayOr 10000 y.written.heartbeatDelay) minHeartbeatDelay =
      y.heartbeatDelay := by
    simp only [ClientSettings.written, hyields.heartbeatDelay]
    exact max_delayOr_writtenDelay 10000 (delayOr_lt 10000 (by decide) _) (by decide)
  have hdial : delayOr 5000 y.written.dialTimeout = y.dialTimeout := by
    simp only [ClientSettings.written, hyields.dialTimeout]
    exact delayOr_writtenDelay 5000 (delayOr_lt 5000 (by decide) _)
  have htoken : trimmedOr y.written.authToken = y.authToken := by
    simp only [ClientSettings.written, hyields.token, trimmedOr_trimmedOr]
  have haddr' : Text.trim y.written.serverAddr = y.serverAddr := haddr
  simp only [ClientSection.settings_eq, haddr', if_neg hnamed, hproxy, hmin, hmax, hheartbeat, hdial,
    htoken]
  rfl

/-! ## The whole file -/

/-- Settings without the blanks around the host that a proxy dials. -/
def Settings.tidied (s : Settings) : Settings :=
  { s with client := s.client.map ClientSettings.tidied }

theorem File.parts_of_settings (h : f.settings = .ok s) :
    s.adminAddr = Text.trim f.adminAddr ∧
      s.logging = f.logging.elim .standard LoggingSection.settings ∧
      f.server.mapM ServerSection.settings = .ok s.server ∧
      f.client.mapM ClientSection.settings = .ok s.client := by
  rw [settings_eq] at h
  obtain ⟨server, hserver, h⟩ := bind_eq_ok.mp h
  obtain ⟨client, hclient, h⟩ := bind_eq_ok.mp h
  cases h
  refine ⟨rfl, ?_, hserver, hclient⟩
  cases f.logging <;> rfl

theorem File.settings_written (h : f.settings = .ok s) : s.written.settings = .ok s.tidied := by
  obtain ⟨hadmin, hlogging, hserver, hclient⟩ := parts_of_settings h
  have hadmin' : Text.trim s.written.adminAddr = s.adminAddr := by
    simp only [Settings.written, hadmin, Text.trim_trim]
  have hlogging' : s.logging.written.settings = s.logging := by
    rw [hlogging]
    cases f.logging with
    | none => exact LoggingSettings.settings_written_standard
    | some l => exact l.settings_written
  have hserver' : s.written.server.mapM ServerSection.settings = .ok (s.server.map id) :=
    mapM_written (fun _ _ => ServerSection.settings_written) hserver
  have hclient' : s.written.client.mapM ClientSection.settings =
      .ok (s.client.map ClientSettings.tidied) :=
    mapM_written (fun _ _ => ClientSection.settings_written) hclient
  rw [settings_eq, hserver', hclient', hadmin', Option.map_id]
  simp only [Settings.written, hlogging']
  rfl

theorem Settings.tidied_tidied (s : Settings) : s.tidied.tidied = s.tidied := by
  obtain ⟨admin, logging, server, _ | y⟩ := s
  · rfl
  · obtain ⟨addr, token, least, most, heartbeat, dial, _ | q⟩ := y
    · rfl
    · simp only [tidied, ClientSettings.tidied, ProxySettings.tidied, Option.map_some,
        Config.tidied_tidied]

/-! ## Every text of settings -/

def LoggingSettings.texts (l : LoggingSettings) : List String := [l.level, l.format, l.output]

def ServerSettings.texts (x : ServerSettings) : List String :=
  [x.listenAddr, x.authToken, x.secret, x.key, x.defaultBindHost]

def ProxySettings.texts (q : ProxySettings) : List String :=
  [q.name, q.localAddr, q.secret, q.key, q.dataHost] ++ q.remoteHost.toList

def ClientSettings.texts (y : ClientSettings) : List String :=
  [y.serverAddr, y.authToken] ++ y.proxy.elim [] ProxySettings.texts

def Settings.texts (s : Settings) : List String :=
  s.adminAddr :: s.logging.texts ++ s.server.elim [] ServerSettings.texts ++
    s.client.elim [] ClientSettings.texts

/-- The host that a proxy section falls back on, if it does so, has no blanks around it. -/
def ProxySection.HostTrimmed (serverAddr : String) (ps : ProxySection) : Prop :=
  (∀ host, ps.dataHost = some host → Text.Blank host) → Trimmed (Address.hostOf serverAddr)

/-- No proxy section of a file falls back on a host with blanks around it. -/
def File.HostTrimmed (f : File) : Prop :=
  ∀ cs ps, f.client = some cs → cs.proxy = some ps → ps.HostTrimmed cs.serverAddr

theorem LoggingSection.trimmed_of_settings (l : LoggingSection) :
    ∀ t ∈ l.settings.texts, Trimmed t := by
  simp only [LoggingSettings.texts, settings, List.forall_mem_cons, List.not_mem_nil, false_implies,
    implies_true, and_true]
  exact ⟨trimmed_filledOr (by decide) _, trimmed_filledOr (by decide) _,
    trimmed_filledOr (by decide) _⟩

theorem ServerSection.trimmed_of_settings (h : ss.settings = .ok x) :
    ∀ t ∈ x.texts, Trimmed t := by
  have hyields := ServerSection.yields h
  obtain ⟨hlisten, hbind⟩ := hosts_of_settings h
  have hsecret : Trimmed x.secret := hyields.secret ▸ trimmed_trim ss.secret
  simp only [ServerSettings.texts, List.forall_mem_cons, List.not_mem_nil, false_implies,
    implies_true, and_true]
  refine ⟨?_, ?_, hsecret, ?_, ?_⟩
  · rw [hlisten]
    exact trimmed_filledOr (by decide) _
  · rw [hyields.token]
    exact trimmed_trimmedOr _
  · rw [hyields.key]
    exact trimmed_filledOr hsecret _
  · rw [hbind]
    exact trimmed_filledOr (by decide) _

/-- Of a proxy's host alone it depends on the section whether it is trimmed. -/
theorem ProxySection.trimmed_iff {serverAddr : String} (h : ps.settings serverAddr = .ok q) :
    (∀ t ∈ q.texts, Trimmed t) ↔ ps.HostTrimmed serverAddr := by
  have hyields := ProxySection.yields h
  obtain ⟨hlocal, hremote⟩ := hosts_of_settings h
  have hsecret : Trimmed q.secret := hyields.secret ▸ trimmed_trim ps.secret
  have hdata : Trimmed q.dataHost ↔ ps.HostTrimmed serverAddr := by
    rw [hyields.dataHost, filledOr_eq, HostTrimmed, ← trimmedOr_eq_empty_iff]
    split
    · rename_i hnone
      exact ⟨fun h _ => h, fun h => h hnone⟩
    · rename_i hgiven
      exact ⟨fun _ hnone => absurd hnone hgiven, fun _ => trimmed_trimmedOr ps.dataHost⟩
  rw [← hdata]
  constructor
  · intro htexts
    apply htexts
    simp [ProxySettings.texts]
  · intro hhost t ht
    simp only [ProxySettings.texts, List.cons_append, List.nil_append, List.mem_cons,
      Option.mem_toList] at ht
    obtain rfl | rfl | rfl | rfl | rfl | ht := ht
    · exact hyields.name ▸ trimmed_trim ps.name
    · exact hlocal ▸ trimmed_trim ps.localAddr
    · exact hsecret
    · exact hyields.key ▸ trimmed_filledOr hsecret ps.key
    · exact hhost
    · rw [hremote] at ht
      obtain ⟨hgiven, -⟩ := Option.filter_eq_some_iff.mp ht
      obtain ⟨given, -, rfl⟩ := Option.map_eq_some_iff.mp hgiven
      exact trimmed_trim given

theorem trimmed_elim_iff {σ τ : Type} {g : σ → Except SettingsError τ} {texts : τ → List String}
    {P : σ → Prop} (htexts : ∀ v t, g v = .ok t → ((∀ text ∈ texts t, Trimmed text) ↔ P v))
    {given : Option σ} {out : Option τ} (h : given.mapM g = .ok out) :
    (∀ text ∈ out.elim [] texts, Trimmed text) ↔ ∀ v, given = some v → P v := by
  cases rel_of_mapM htexts h with
  | none => exact ⟨fun _ => nofun, fun _ => nofun⟩
  | some hR =>
    rw [Option.elim_some, hR]
    exact ⟨fun h _ hv => Option.some.inj hv ▸ h, fun h => h _ rfl⟩

theorem ClientSection.trimmed_iff (h : cs.settings = .ok y) :
    (∀ t ∈ y.texts, Trimmed t) ↔ ∀ ps, cs.proxy = some ps → ps.HostTrimmed cs.serverAddr := by
  obtain ⟨haddr, hproxy⟩ := parts_of_settings h
  have htoken : Trimmed y.authToken := (ClientSection.yields h).token ▸ trimmed_trimmedOr cs.authToken
  have hserver : Trimmed y.serverAddr := haddr ▸ trimmed_trim cs.serverAddr
  have hiff := trimmed_elim_iff (fun _ _ => ProxySection.trimmed_iff) hproxy
  simp only [haddr, ProxySection.HostTrimmed, Address.hostOf_trim] at hiff
  simp only [ProxySection.HostTrimmed, ← hiff, ClientSettings.texts, List.forall_mem_append,
    List.forall_mem_cons, List.not_mem_nil, false_implies, implies_true, and_true]
  exact and_iff_right ⟨hserver, htoken⟩

theorem File.trimmed_iff (h : f.settings = .ok s) :
    (∀ t ∈ s.texts, Trimmed t) ↔ f.HostTrimmed := by
  obtain ⟨hadmin, hlogging, hserver, hclient⟩ := parts_of_settings h
  have hadmin' : Trimmed s.adminAddr := hadmin ▸ trimmed_trim f.adminAddr
  have hlogging' : ∀ t ∈ s.logging.texts, Trimmed t := by
    rw [hlogging]
    cases f.logging with
    | none => decide
    | some l => exact l.trimmed_of_settings
  have hserver' : ∀ t ∈ s.server.elim [] ServerSettings.texts, Trimmed t :=
    (trimmed_elim_iff (P := fun _ => True)
      (fun _ _ h => iff_true_intro (ServerSection.trimmed_of_settings h)) hserver).mpr
      fun _ _ => trivial
  have hiff := trimmed_elim_iff (fun _ _ => ClientSection.trimmed_iff) hclient
  simp only [Settings.texts, List.cons_append, List.forall_mem_cons, List.forall_mem_append, hiff]
  constructor
  · rintro ⟨-, ⟨-, -⟩, hhost⟩ cs ps hcs hps
    exact hhost cs hcs ps hps
  · intro hhost
    exact ⟨hadmin', ⟨hlogging', hserver'⟩, fun cs hcs ps hps => hhost cs ps hcs hps⟩

theorem Settings.tidied_of_trimmed (h : ∀ t ∈ s.texts, Trimmed t) : s.tidied = s := by
  obtain ⟨admin, logging, server, _ | y⟩ := s
  · rfl
  · obtain ⟨addr, token, least, most, heartbeat, dial, _ | q⟩ := y
    · rfl
    · have hhost : Config.tidied q.dataHost = q.dataHost := by
        apply Config.tidied_of_trimmed
        apply h
        simp [texts, ClientSettings.texts, ProxySettings.texts]
      simp only [tidied, ClientSettings.tidied, ProxySettings.tidied, Option.map_some, hhost]

/-- Settings that a file comes to are read again when they are written back, and are what they
were but for the blanks around the host that a proxy takes from the server's address; what they
then are they stay. They are just what they were, and every text of them is trimmed, if there are
no such blanks, and not every text of them is if there are. -/
theorem settled_when_written_back (h : f.settings = .ok s) :
    s.written.settings = .ok s.tidied ∧
    s.tidied.written.settings = .ok s.tidied ∧
    (f.HostTrimmed → s.written.settings = .ok s) ∧
    ((∀ t ∈ s.texts, Text.trim t = t) ↔ f.HostTrimmed) := by
  have hwritten := File.settings_written h
  have htrimmed := File.trimmed_iff h
  refine ⟨hwritten, ?_, fun hhost => ?_, htrimmed⟩
  · have hagain := File.settings_written hwritten
    rwa [Settings.tidied_tidied] at hagain
  · rwa [Settings.tidied_of_trimmed (htrimmed.mpr hhost)] at hwritten

/-- A file of a server that judges connections for as long as can be said, and of a client of the
server at an address. -/
def padded (serverAddr : String) : File where
  adminAddr := " :8080 "
  logging := some { level := some " ", format := some "text ", output := none, addSource := true }
  server := some {
    listenAddr := none, authToken := some " t", secret := "s ", key := some "\u2003"
    judgeDelay := some 9223372036854775807, heartbeatDelay := some (-1), allowHostOverride := true
    unboundTtl := some 0, defaultBindHost := some "", closeOnAuthFailure := false }
  client := some {
    serverAddr, authToken := none, minReconnectDelay := some 90000, maxReconnectDelay := none
    heartbeatDelay := none, dialTimeout := some 0
    proxy := some {
      name := " web", localAddr := "l:80 ", remotePort := 9000, remoteHost := some " "
      secret := "", key := none, dataHost := some " " } }

/-- A blank between the host and the colon is not taken for one around a text, and goes only when
the settings are read again. -/
theorem blank_stays_behind_host : ∃ s, (padded "h :7000").settings = .ok s ∧
    s.written.settings ≠ .ok s ∧ ∃ t ∈ s.texts, Text.trim t ≠ t := by
  obtain ⟨s, hs⟩ : ∃ s, (padded "h :7000").settings = .ok s := ⟨_, rfl⟩
  refine ⟨s, hs, ?_, "h ", ?_, by decide⟩
  · rw [File.settings_written hs, ne_eq, Except.ok.injEq]
    cases hs
    decide
  · cases hs
    decide

/-- Without that blank everything stays, though the time for which a user may wait is longer than
a file can say. -/
theorem settled_when_written_back_longestWait : ∃ s, (padded " h:7000").settings = .ok s ∧
    s.written.settings = .ok s ∧ (∀ t ∈ s.texts, Text.trim t = t) ∧
    s.written.server.map ServerSection.unboundTtl = some none ∧ "h" ∈ s.texts := by
  obtain ⟨s, hs⟩ : ∃ s, (padded " h:7000").settings = .ok s := ⟨_, rfl⟩
  have hhost : (padded " h:7000").HostTrimmed := by
    intro cs ps hcs hps _
    cases hcs
    decide
  obtain ⟨-, -, hsame, htrimmed⟩ := settled_when_written_back hs
  refine ⟨s, hs, hsame hhost, htrimmed.mpr hhost, ?_⟩
  cases hs
  decide

end ReverseTunnel.Config

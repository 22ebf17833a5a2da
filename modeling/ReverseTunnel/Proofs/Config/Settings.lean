import ReverseTunnel.Config.Settings
import ReverseTunnel.Proofs.Outcome
import ReverseTunnel.Proofs.Text.Trim

/-!
What the settings of a file that is accepted say.

Each section comes to settings of its own, and a section that is missing to none
(`File.Settled`). Texts come out trimmed. What was left blank has its default, so that a
text with a default is blank only if the default is (`filledOr_of_blank`).
-/

namespace ReverseTunnel.Config

open Outcome (bind_eq_ok rel_of_mapM)

variable {f : File} {s : Settings} {ss : ServerSection} {cs : ClientSection} {ps : ProxySection}
  {x : ServerSettings} {y : ClientSettings} {q : ProxySettings}

/-! ## Sections that may be missing -/

theorem settings_of_rel {σ τ : Type} {R : σ → τ → Prop} {given : Option σ} {out : Option τ} {v : σ}
    (h : Option.Rel R given out) (hv : given = some v) : ∃ t, out = some t ∧ R v t := by
  cases h with
  | none => cases hv
  | some hR =>
    cases hv
    exact ⟨_, rfl, hR⟩

theorem section_of_rel {σ τ : Type} {R : σ → τ → Prop} {given : Option σ} {out : Option τ} {t : τ}
    (h : Option.Rel R given out) (ht : out = some t) : ∃ v, given = some v ∧ R v t := by
  cases h with
  | none => cases ht
  | some hR =>
    cases ht
    exact ⟨_, rfl, hR⟩

theorem ClientSection.settings_eq (cs : ClientSection) : cs.settings =
    if Text.trim cs.serverAddr = "" then .error .serverAddrMissing
    else do
      let proxy ← cs.proxy.mapM (ProxySection.settings (Text.trim cs.serverAddr))
      let minReconnectDelay := delayOr 1000 cs.minReconnectDelay
      return {
        serverAddr := Text.trim cs.serverAddr, minReconnectDelay, proxy
        authToken := trimmedOr cs.authToken
        maxReconnectDelay := max (delayOr 60000 cs.maxReconnectDelay) minReconnectDelay
        heartbeatDelay := max (delayOr 10000 cs.heartbeatDelay) minHeartbeatDelay
        dialTimeout := delayOr 5000 cs.dialTimeout } := by
  unfold ClientSection.settings
  cases cs.proxy <;> rfl

theorem File.settings_eq (f : File) : f.settings = do
    let server ← f.server.mapM ServerSection.settings
    let client ← f.client.mapM ClientSection.settings
    return {
      adminAddr := Text.trim f.adminAddr
      logging := match f.logging with
        | some l => l.settings
        | none => .standard
      server, client } := by
  unfold File.settings
  cases f.server <;> cases f.client <;> rfl

/-! ## Texts -/

theorem isBlankText_trim {text : String} (h : Text.trim text ≠ "") :
    Text.isBlankText (Text.trim text) = false := by
  rw [Bool.eq_false_iff, ne_eq, Text.isBlankText_iff, Text.trim_trim]
  exact h

/-- A text with a default is the default, or trimmed and not blank. -/
theorem filledOr_cases (default : String) (text : Option String) :
    filledOr default text = default ∨
      (filledOr default text = trimmedOr text ∧ Text.isBlankText (filledOr default text) = false) := by
  cases text with
  | none => exact .inl rfl
  | some t =>
    by_cases hblank : Text.isBlankText t = true
    · exact .inl (if_pos hblank)
    · right
      have hfilled : filledOr default (some t) = Text.trim t := if_neg hblank
      rw [Text.isBlankText_iff] at hblank
      exact ⟨hfilled, hfilled ▸ isBlankText_trim hblank⟩

theorem filledOr_of_blank {default : String} {text : Option String}
    (h : Text.isBlankText (filledOr default text) = true) : filledOr default text = default := by
  rcases filledOr_cases default text with hdefault | ⟨-, hfilled⟩
  · exact hdefault
  · rw [hfilled] at h
    cases h

theorem not_blank_filledOr {default : String} (h : Text.isBlankText default = false)
    (text : Option String) : Text.isBlankText (filledOr default text) = false := by
  rw [Bool.eq_false_iff]
  intro hblank
  rw [filledOr_of_blank hblank, h] at hblank
  cases hblank

/-- Whatever the default is, what is filled in depends on the trimmed text alone. -/
theorem filledOr_eq (default : String) (text : Option String) :
    filledOr default text = if trimmedOr text = "" then default else trimmedOr text := by
  cases text with
  | none => rfl
  | some t =>
    simp only [filledOr, trimmedOr, Text.isBlankText_iff]
    rfl

/-! ## What a section comes to -/

/-- The settings of a server section that is accepted. -/
structure ServerSection.Yields (ss : ServerSection) (x : ServerSettings) : Prop where
  token : x.authToken = trimmedOr ss.authToken
  secret : x.secret = Text.trim ss.secret
  key : x.key = filledOr x.secret ss.key
  /-- There is something to seal requests under. -/
  keyed : x.key ≠ ""
  listenAddr : Text.isBlankText x.listenAddr = false
  bindHost : Text.isBlankText x.defaultBindHost = false
  judgeDelay : x.judgeDelay = delayOr 300 ss.judgeDelay
  unboundTtl : x.unboundTtl = ss.effectiveTtl x.judgeDelay
  heartbeatDelay : x.heartbeatDelay = max (delayOr 10000 ss.heartbeatDelay) minHeartbeatDelay
  judged : 0 < x.judgeDelay ∧ x.judgeDelay < x.unboundTtl

theorem ServerSection.Yields.le_heartbeatDelay (h : ss.Yields x) :
    minHeartbeatDelay ≤ x.heartbeatDelay :=
  h.heartbeatDelay ▸ Nat.le_max_right _ _

theorem ServerSection.yields (h : ss.settings = .ok x) : ss.Yields x := by
  simp only [ServerSection.settings] at h
  split at h
  · cases h
  · rename_i hjudge
    split at h
    · cases h
    · rename_i httl
      split at h
      · cases h
      · rename_i hkey
        cases h
        exact ⟨rfl, rfl, rfl, hkey, not_blank_filledOr (by decide) _, not_blank_filledOr (by decide) _,
          rfl, rfl, rfl, Nat.pos_of_ne_zero hjudge, Nat.lt_of_not_le httl⟩

/-- The settings of a proxy section that is accepted, of a client of a server's address. -/
structure ProxySection.Yields (serverAddr : String) (ps : ProxySection) (q : ProxySettings) :
    Prop where
  name : q.name = Text.trim ps.name
  named : Text.isBlankText q.name = false
  localAddr : Text.isBlankText q.localAddr = false
  remoteHost : ∀ host, q.remoteHost = some host → Text.isBlankText host = false
  secret : q.secret = Text.trim ps.secret
  key : q.key = filledOr q.secret ps.key
  dataHost : q.dataHost = filledOr (Address.hostOf serverAddr) ps.dataHost

theorem ProxySection.yields {serverAddr : String} (h : ps.settings serverAddr = .ok q) :
    ps.Yields serverAddr q := by
  simp only [ProxySection.settings] at h
  split at h
  · cases h
  · rename_i hname
    split at h
    · cases h
    · rename_i hlocal
      cases h
      refine ⟨rfl, isBlankText_trim hname, isBlankText_trim hlocal, fun host hhost => ?_, rfl, rfl, rfl⟩
      obtain ⟨hgiven, hfilled⟩ := Option.filter_eq_some_iff.mp hhost
      obtain ⟨given, -, rfl⟩ := Option.map_eq_some_iff.mp hgiven
      exact isBlankText_trim (by simpa using hfilled)

/-- The settings of a client section that is accepted. -/
structure ClientSection.Yields (cs : ClientSection) (y : ClientSettings) : Prop where
  token : y.authToken = trimmedOr cs.authToken
  serverAddr : Text.trim y.serverAddr = y.serverAddr ∧ y.serverAddr ≠ ""
  minReconnectDelay : y.minReconnectDelay = delayOr 1000 cs.minReconnectDelay
  maxReconnectDelay :
    y.maxReconnectDelay = max (delayOr 60000 cs.maxReconnectDelay) y.minReconnectDelay
  heartbeatDelay : y.heartbeatDelay = max (delayOr 10000 cs.heartbeatDelay) minHeartbeatDelay
  dialTimeout : y.dialTimeout = delayOr 5000 cs.dialTimeout
  proxy : Option.Rel (ProxySection.Yields y.serverAddr) cs.proxy y.proxy

theorem ClientSection.Yields.le_heartbeatDelay (h : cs.Yields y) :
    minHeartbeatDelay ≤ y.heartbeatDelay :=
  h.heartbeatDelay ▸ Nat.le_max_right _ _

theorem ClientSection.yields (h : cs.settings = .ok y) : cs.Yields y := by
  rw [ClientSection.settings_eq] at h
  split at h
  · cases h
  · rename_i haddr
    obtain ⟨proxy, hproxy, h⟩ := bind_eq_ok.mp h
    cases h
    exact ⟨rfl, ⟨Text.trim_trim _, haddr⟩, rfl, rfl, rfl, rfl,
      rel_of_mapM (fun _ _ => ProxySection.yields) hproxy⟩

/-- The settings of a file that is accepted: those of its sections. -/
structure File.Settled (f : File) (s : Settings) : Prop where
  server : Option.Rel ServerSection.Yields f.server s.server
  client : Option.Rel ClientSection.Yields f.client s.client

theorem File.settled (h : f.settings = .ok s) : f.Settled s := by
  rw [File.settings_eq] at h
  obtain ⟨server, hserver, h⟩ := bind_eq_ok.mp h
  obtain ⟨client, hclient, h⟩ := bind_eq_ok.mp h
  cases h
  exact ⟨rel_of_mapM (fun _ _ => ServerSection.yields) hserver,
    rel_of_mapM (fun _ _ => ClientSection.yields) hclient⟩

end ReverseTunnel.Config

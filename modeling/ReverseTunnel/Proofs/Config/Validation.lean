import ReverseTunnel.Proofs.Client.Backoff
import ReverseTunnel.Proofs.Config.Settings

/-!
Which files are refused, for which fault, and what the settings of all others are good for.

What is proved, of every file (`refused_for_first_fault`):
1. What is wrong with a section is said of the section alone, whatever else is wrong with it
   (`Faulty`), and the faults are looked for in an order (`SettingsError.inOrder`). A file is
   refused for the first fault that it has (`accounts_settings`), of which there is at most one
   (`First.unique`), and comes to settings if it has none.
2. The settings that it comes to are those that the two ends can work with (`Sound`).
3. A clock can hold every delay that is computed on the way. The delays are listed for each
   section (`File.delays`), since this does not depend on what becomes of it.

Each way in which settings are computed accounts for the faults that it looks for (`Accounts`),
and what looks for some and then for others accounts for both.

What is not said: how the text of a file is read.
-/

namespace ReverseTunnel.Config

variable {f : File} {s : Settings} {ss : ServerSection} {cs : ClientSection} {ps : ProxySection}
  {x : ServerSettings} {y : ClientSettings} {q : ProxySettings} {e e' : SettingsError}

/-! ## Faults -/

/-- How long a connection is judged, as configured or by default. -/
def ServerSection.judged (ss : ServerSection) : Int := (ss.judgeDelay.map Int64.toInt).getD 300

/-- What is wrong with a server section: how long a connection is judged, or how long a user may
wait, as far as that is given, or that neither the key nor the secret says anything. -/
def ServerSection.Faulty (ss : ServerSection) : SettingsError → Prop
  | .judgeDelayNotPositive => ss.judged ≤ 0
  | .unboundTtlTooShort => ∃ ttl, ss.unboundTtl = some ttl ∧ 0 < ttl.toInt ∧ ttl.toInt ≤ ss.judged
  | .serverSecretMissing => (∀ key, ss.key = some key → Text.Blank key) ∧ Text.Blank ss.secret
  | _ => False

/-- What is wrong with a proxy section. -/
def ProxySection.Faulty (ps : ProxySection) : SettingsError → Prop
  | .proxyNameMissing => Text.Blank ps.name
  | .proxyLocalAddrMissing => Text.Blank ps.localAddr
  | _ => False

/-- What is wrong with a client section, or with the proxy section in it. -/
def ClientSection.Faulty (cs : ClientSection) (e : SettingsError) : Prop :=
  (e = .serverAddrMissing ∧ Text.Blank cs.serverAddr) ∨ ∃ ps, cs.proxy = some ps ∧ ps.Faulty e

/-- What is wrong with a file. -/
def File.Faulty (f : File) (e : SettingsError) : Prop :=
  (∃ ss, f.server = some ss ∧ ss.Faulty e) ∨ ∃ cs, f.client = some cs ∧ cs.Faulty e

/-- The faults in the order in which they are looked for. -/
def SettingsError.inOrder : List SettingsError :=
  [.judgeDelayNotPositive, .unboundTtlTooShort, .serverSecretMissing, .serverAddrMissing,
    .proxyNameMissing, .proxyLocalAddrMissing]

/-- The place of a fault in that order. -/
def SettingsError.place (e : SettingsError) : Nat := inOrder.idxOf e

/-- The fault that comes first among several. -/
structure First (P : SettingsError → Prop) (e : SettingsError) : Prop where
  holds : P e
  first : ∀ e', P e' → e.place ≤ e'.place

theorem First.unique {P : SettingsError → Prop} (h : First P e) (h' : First P e') : e = e' := by
  have hplace := Nat.le_antisymm (h.first e' h'.holds) (h'.first e h.holds)
  revert hplace
  cases e <;> cases e' <;> decide

/-! ## Accounting for faults -/

/-- What is computed fails with the first of these faults, and does not fail if there is none. -/
def Accounts {α : Type} (P : SettingsError → Prop) : Except SettingsError α → Prop
  | .error e => First P e
  | .ok _ => ∀ e, ¬P e

variable {α β : Type} {P Q : SettingsError → Prop} {r : Except SettingsError α}

theorem Accounts.congr (h : Accounts P r) (hPQ : ∀ e, P e ↔ Q e) : Accounts Q r := by
  obtain rfl : P = Q := funext fun e => propext (hPQ e)
  exact h

theorem Accounts.eq_error_iff (h : Accounts P r) : r = .error e ↔ First P e := by
  cases r with
  | error e' =>
    constructor
    · rintro ⟨⟩
      exact h
    · intro h'
      rw [First.unique h h']
  | ok v => exact ⟨nofun, fun h' => absurd h'.holds (h e)⟩

theorem Accounts.eq_ok_iff (h : Accounts P r) : (∃ v, r = .ok v) ↔ ∀ e, ¬P e := by
  cases r with
  | error e => exact ⟨nofun, fun hnone => absurd h.holds (hnone e)⟩
  | ok v => exact ⟨fun _ => h, fun _ => ⟨v, rfl⟩⟩

theorem accounts_ok (v : α) : Accounts (fun _ => False) (.ok v) := fun _ => id

theorem accounts_check {c p : Prop} [Decidable c] (hc : c ↔ p) (hr : ¬p → Accounts Q r)
    (horder : ∀ e', Q e' → e.place ≤ e'.place) :
    Accounts (fun e' => (e' = e ∧ p) ∨ Q e') (if c then .error e else r) := by
  by_cases hp : p
  · rw [if_pos (hc.mpr hp)]
    refine ⟨.inl ⟨rfl, hp⟩, ?_⟩
    rintro e' (⟨rfl, -⟩ | he')
    · exact Nat.le_refl _
    · exact horder e' he'
  · rw [if_neg (hc.not.mpr hp)]
    exact (hr hp).congr fun e' => ⟨.inr, fun h => h.resolve_left fun h => hp h.2⟩

/-- What looks for some faults, and then for others that come behind them. -/
theorem Accounts.bind {g : α → Except SettingsError β} (h : Accounts P r)
    (hg : ∀ v, r = .ok v → Accounts Q (g v)) (horder : ∀ e e', P e → Q e' → e.place ≤ e'.place) :
    Accounts (fun e => P e ∨ Q e) (r >>= g) := by
  cases r with
  | error e =>
    refine ⟨.inl h.holds, ?_⟩
    rintro e' (he' | he')
    · exact h.first e' he'
    · exact horder e e' h.holds he'
  | ok v => exact (hg v rfl).congr fun e => ⟨.inr, fun he => he.resolve_left (h e)⟩

theorem Accounts.map (h : Accounts P r) (f : α → β) : Accounts P (r >>= fun v => .ok (f v)) := by
  have hbind : Accounts (fun e => P e ∨ False) (r >>= fun v => .ok (f v)) :=
    h.bind (fun v _ => accounts_ok (f v)) fun _ _ _ => False.elim
  exact hbind.congr fun e => iff_of_eq (or_false (P e))

/-- A section that may be missing has the faults that it has if it is there. -/
theorem accounts_mapM {σ τ : Type} {P : σ → SettingsError → Prop} {g : σ → Except SettingsError τ}
    (h : ∀ v, Accounts (P v) (g v)) (given : Option σ) :
    Accounts (fun e => ∃ v, given = some v ∧ P v e) (given.mapM g) := by
  cases given with
  | none => exact (accounts_ok none).congr fun e => ⟨nofun, nofun⟩
  | some v => exact ((h v).map some).congr fun e => by simp

/-! ## Section by section -/

theorem ServerSection.delayOr_judgeDelay (ss : ServerSection) :
    delayOr 300 ss.judgeDelay = ss.judged.toNat := by
  unfold judged
  cases ss.judgeDelay <;> rfl

/-- How long a user may wait is too short only if it is given so, for it is a hundred times as
long as a connection is judged if it is not given. -/
theorem ServerSection.effectiveTtl_le_iff (ss : ServerSection) (hjudged : 0 < ss.judged) :
    ss.effectiveTtl ss.judged.toNat ≤ ss.judged.toNat ↔ ss.Faulty .unboundTtlTooShort := by
  simp only [effectiveTtl, Faulty]
  cases ss.unboundTtl with
  | none =>
    refine ⟨fun h => ?_, nofun⟩
    dsimp only at h
    omega
  | some ttl =>
    dsimp only
    split
    · rename_i hpos
      have hle : ttl.toInt.toNat ≤ ss.judged.toNat ↔ ttl.toInt ≤ ss.judged := by omega
      rw [hle]
      refine ⟨fun h => ⟨ttl, rfl, hpos, h⟩, fun ⟨given, hgiven, _, h⟩ => ?_⟩
      rwa [Option.some.inj hgiven]
    · rename_i hnot
      refine ⟨fun h => by omega, fun ⟨given, hgiven, hpos, _⟩ => absurd hpos ?_⟩
      rwa [← Option.some.inj hgiven]

theorem trimmedOr_eq_empty_iff (text : Option String) :
    trimmedOr text = "" ↔ ∀ t, text = some t → Text.Blank t := by
  cases text with
  | none => exact ⟨fun _ => nofun, fun _ => rfl⟩
  | some t =>
    rw [trimmedOr, Text.trim_eq_empty_iff]
    exact ⟨fun h _ ht => Option.some.inj ht ▸ h, fun h => h t rfl⟩

theorem filledOr_eq_empty_iff (given : String) (text : Option String) :
    filledOr (Text.trim given) text = "" ↔
      (∀ t, text = some t → Text.Blank t) ∧ Text.Blank given := by
  rw [filledOr_eq, ← trimmedOr_eq_empty_iff, ← Text.trim_eq_empty_iff]
  split
  · rename_i hnone
    exact (and_iff_right hnone).symm
  · rename_i hfilled
    exact ⟨fun h => absurd h hfilled, fun h => absurd h.1 hfilled⟩

theorem ServerSection.accounts_settings (ss : ServerSection) : Accounts ss.Faulty ss.settings := by
  simp only [ServerSection.settings, ss.delayOr_judgeDelay]
  refine (accounts_check (p := ss.Faulty .judgeDelayNotPositive) (by simp [Faulty]) (fun hpos =>
    accounts_check (ss.effectiveTtl_le_iff (Int.not_le.mp hpos)) (fun _ =>
      accounts_check (p := ss.Faulty .serverSecretMissing) (filledOr_eq_empty_iff ss.secret ss.key)
        (fun _ => accounts_ok _) fun _ => False.elim) ?_) ?_).congr fun e => ?_
  · rintro e (⟨rfl, -⟩ | h)
    · decide
    · exact h.elim
  · rintro e (⟨rfl, -⟩ | ⟨rfl, -⟩ | h)
    · decide
    · decide
    · exact h.elim
  · cases e <;> simp [Faulty]

theorem ProxySection.accounts_settings (ps : ProxySection) (serverAddr : String) :
    Accounts ps.Faulty (ps.settings serverAddr) := by
  simp only [ProxySection.settings]
  refine (accounts_check (Text.trim_eq_empty_iff ps.name) (fun _ =>
    accounts_check (Text.trim_eq_empty_iff ps.localAddr) (fun _ => accounts_ok _)
      fun _ => False.elim) ?_).congr fun e => ?_
  · rintro e (⟨rfl, -⟩ | h)
    · decide
    · exact h.elim
  · cases e <;> simp [Faulty]

/-- The faults of a server section come before all others. -/
theorem ServerSection.place_le (h : ss.Faulty e) : e.place ≤ 2 := by
  cases e <;> first | exact h.elim | decide

theorem ProxySection.le_place (h : ps.Faulty e) : 4 ≤ e.place := by
  cases e <;> first | exact h.elim | decide

theorem ClientSection.le_place (h : cs.Faulty e) : 3 ≤ e.place := by
  obtain ⟨rfl, -⟩ | ⟨ps, -, hps⟩ := h
  · decide
  · exact Nat.le_of_succ_le (ProxySection.le_place hps)

theorem ClientSection.accounts_settings (cs : ClientSection) : Accounts cs.Faulty cs.settings := by
  rw [ClientSection.settings_eq]
  refine accounts_check (Text.trim_eq_empty_iff cs.serverAddr) (fun _ => ?_) ?_
  · have hproxy := accounts_mapM (fun ps => ps.accounts_settings (Text.trim cs.serverAddr)) cs.proxy
    exact hproxy.map _
  · rintro e ⟨ps, -, hps⟩
    exact Nat.le_of_succ_le (ProxySection.le_place hps)

theorem File.accounts_settings (f : File) : Accounts f.Faulty f.settings := by
  rw [File.settings_eq]
  refine (accounts_mapM ServerSection.accounts_settings f.server).bind (fun server _ => ?_) ?_
  · exact (accounts_mapM ClientSection.accounts_settings f.client).map _
  · rintro e e' ⟨ss, -, hss⟩ ⟨cs, -, hcs⟩
    exact Nat.le_of_succ_le ((Nat.succ_le_succ (ServerSection.place_le hss)).trans
      (ClientSection.le_place hcs))

/-! ## Delays -/

/-- The delays that are computed for a server section, whatever becomes of it. -/
def ServerSection.delays (ss : ServerSection) : List Nat :=
  let judgeDelay := delayOr 300 ss.judgeDelay
  let heartbeatDelay := delayOr 10000 ss.heartbeatDelay
  [judgeDelay, judgeDelay * 100, ss.effectiveTtl judgeDelay, heartbeatDelay,
    max heartbeatDelay minHeartbeatDelay]

/-- The delays that are computed for a client section. -/
def ClientSection.delays (cs : ClientSection) : List Nat :=
  let minReconnectDelay := delayOr 1000 cs.minReconnectDelay
  let maxReconnectDelay := delayOr 60000 cs.maxReconnectDelay
  let heartbeatDelay := delayOr 10000 cs.heartbeatDelay
  [minReconnectDelay, maxReconnectDelay, max maxReconnectDelay minReconnectDelay, heartbeatDelay,
    max heartbeatDelay minHeartbeatDelay, delayOr 5000 cs.dialTimeout]

/-- The delays that are computed for a file. -/
def File.delays (f : File) : List Nat :=
  (f.server.elim [] ServerSection.delays) ++ f.client.elim [] ClientSection.delays

theorem delayOr_lt (default : Nat) (h : default < 2 ^ 63) (given : Option Int64) :
    delayOr default given < 2 ^ 63 := by
  cases given with
  | none => exact h
  | some ms =>
    have hms := ms.toInt_lt
    simp only [delayOr]
    omega

theorem ServerSection.effectiveTtl_lt (ss : ServerSection) {judgeDelay : Nat}
    (h : judgeDelay < 2 ^ 63) : ss.effectiveTtl judgeDelay < 2 ^ 63 * 100 := by
  unfold effectiveTtl
  cases ss.unboundTtl with
  | none =>
    dsimp only
    omega
  | some ttl =>
    have httl := ttl.toInt_lt
    dsimp only
    split <;> omega

theorem ServerSection.delays_le (ss : ServerSection) : ∀ d ∈ ss.delays, d ≤ longestDelay := by
  have hjudge := delayOr_lt 300 (by decide) ss.judgeDelay
  have hheartbeat := delayOr_lt 10000 (by decide) ss.heartbeatDelay
  have httl := ss.effectiveTtl_lt hjudge
  simp only [delays, List.mem_cons, List.not_mem_nil, or_false, minHeartbeatDelay]
  unfold longestDelay
  rintro d (rfl | rfl | rfl | rfl | rfl) <;> omega

theorem ClientSection.delays_le (cs : ClientSection) : ∀ d ∈ cs.delays, d ≤ longestDelay := by
  have hmin := delayOr_lt 1000 (by decide) cs.minReconnectDelay
  have hmax := delayOr_lt 60000 (by decide) cs.maxReconnectDelay
  have hheartbeat := delayOr_lt 10000 (by decide) cs.heartbeatDelay
  have hdial := delayOr_lt 5000 (by decide) cs.dialTimeout
  simp only [delays, List.mem_cons, List.not_mem_nil, or_false, minHeartbeatDelay]
  unfold longestDelay
  rintro d (rfl | rfl | rfl | rfl | rfl | rfl) <;> omega

theorem File.delays_le (f : File) : ∀ d ∈ f.delays, d ≤ longestDelay := by
  intro d hd
  obtain hserver | hclient := List.mem_append.mp hd
  · cases hss : f.server with
    | none => simp [hss] at hserver
    | some ss => exact ss.delays_le d (by simpa [hss] using hserver)
  · cases hcs : f.client with
    | none => simp [hcs] at hclient
    | some cs => exact cs.delays_le d (by simpa [hcs] using hclient)

/-! ## What settings are good for -/

/-- The settings of a server that can be run, from the section that they are made of: it judges
connections for some time, lets users wait for longer, and has a key and hosts to listen on. -/
structure ServerSection.Sound (ss : ServerSection) (x : ServerSettings) : Prop where
  judged : 0 < x.judgeDelay ∧ x.judgeDelay < x.unboundTtl
  key : ¬Text.Blank x.key
  listenAddr : ¬Text.Blank x.listenAddr
  bindHost : ¬Text.Blank x.defaultBindHost
  heartbeatDelay : 100 ≤ x.heartbeatDelay
  delays : [x.judgeDelay, x.unboundTtl, x.heartbeatDelay] ⊆ ss.delays

/-- The settings of a proxy that can be asked for, from the section that they are made of: its key
is the one of the section if that says anything, and the secret of the section if not. -/
structure ProxySection.Sound (ps : ProxySection) (q : ProxySettings) : Prop where
  name : ¬Text.Blank q.name
  localAddr : ¬Text.Blank q.localAddr
  remoteHost : ∀ host, q.remoteHost = some host → ¬Text.Blank host
  key : ∀ key, ps.key = some key → ¬Text.Blank key → q.key = Text.trim key
  secret : (∀ key, ps.key = some key → Text.Blank key) → q.key = Text.trim ps.secret

/-- The settings of a client that can be run, from the section that they are made of. -/
structure ClientSection.Sound (cs : ClientSection) (y : ClientSettings) : Prop where
  serverAddr : ¬Text.Blank y.serverAddr
  heartbeatDelay : 100 ≤ y.heartbeatDelay
  reconnectDelay : y.minReconnectDelay ≤ y.maxReconnectDelay
  delays :
    [y.minReconnectDelay, y.maxReconnectDelay, y.heartbeatDelay, y.dialTimeout] ⊆ cs.delays
  proxy : Option.Rel ProxySection.Sound cs.proxy y.proxy

/-- The settings of a file: one of its sections each, and sound. -/
structure File.Sound (f : File) (s : Settings) : Prop where
  server : Option.Rel ServerSection.Sound f.server s.server
  client : Option.Rel ClientSection.Sound f.client s.client

theorem not_blank {text : String} (h : Text.isBlankText text = false) : ¬Text.Blank text := by
  rw [← Text.isBlankText_iff_blank, h]
  exact Bool.false_ne_true

theorem not_blank_filledOr_trim {given : String} {text : Option String}
    (h : filledOr (Text.trim given) text ≠ "") :
    ¬Text.Blank (filledOr (Text.trim given) text) := by
  intro hblank
  have hgiven : filledOr (Text.trim given) text = Text.trim given :=
    filledOr_of_blank ((Text.isBlankText_iff_blank _).mpr hblank)
  rw [hgiven] at h
  rw [hgiven, ← Text.trim_eq_empty_iff, Text.trim_trim] at hblank
  exact h hblank

theorem rel_mono {σ τ : Type} {R S : σ → τ → Prop} {given : Option σ} {out : Option τ}
    (hRS : ∀ v t, R v t → S v t) (h : Option.Rel R given out) : Option.Rel S given out := by
  cases h with
  | none => exact .none
  | some hR => exact .some (hRS _ _ hR)

theorem ServerSection.Yields.sound (h : ss.Yields x) : ss.Sound x where
  judged := h.judged
  key := by
    have hkeyed := h.keyed
    rw [h.key, h.secret] at hkeyed ⊢
    exact not_blank_filledOr_trim hkeyed
  listenAddr := not_blank h.listenAddr
  bindHost := not_blank h.bindHost
  heartbeatDelay := h.le_heartbeatDelay
  delays := by
    rw [h.unboundTtl, h.heartbeatDelay, h.judgeDelay]
    simp [delays]

theorem ProxySection.Yields.sound {serverAddr : String} (h : ps.Yields serverAddr q) :
    ps.Sound q where
  name := not_blank h.named
  localAddr := not_blank h.localAddr
  remoteHost := fun host hhost => not_blank (h.remoteHost host hhost)
  key := fun key hkey hfilled => by
    rw [h.key, hkey, filledOr_eq]
    exact if_neg ((Text.trim_eq_empty_iff key).not.mpr hfilled)
  secret := fun hnone => by
    rw [h.key, h.secret, filledOr_eq]
    exact if_pos ((trimmedOr_eq_empty_iff ps.key).mpr hnone)

theorem ClientSection.Yields.sound (h : cs.Yields y) : cs.Sound y where
  serverAddr := by
    rw [← Text.trim_eq_empty_iff, h.serverAddr.1]
    exact h.serverAddr.2
  heartbeatDelay := h.le_heartbeatDelay
  reconnectDelay := h.maxReconnectDelay ▸ Nat.le_max_right _ _
  delays := by
    rw [h.maxReconnectDelay, h.minReconnectDelay, h.heartbeatDelay, h.dialTimeout]
    simp [delays]
  proxy := rel_mono (fun _ _ => ProxySection.Yields.sound) h.proxy

theorem File.Settled.sound (h : f.Settled s) : f.Sound s where
  server := rel_mono (fun _ _ => ServerSection.Yields.sound) h.server
  client := rel_mono (fun _ _ => ClientSection.Yields.sound) h.client

/-- A file is refused with the message of the first fault that it has, and for nothing else, and
comes to settings if it has none. Whatever its texts and its delays are, these settings can be run,
and a clock that counts seconds in 64 bits can hold every delay that is computed, be the file
refused or not. -/
theorem refused_for_first_fault (f : File) :
    (∀ e, f.settings = .error e ↔ First f.Faulty e) ∧
    ((∃ s, f.settings = .ok s) ↔ ∀ e, ¬f.Faulty e) ∧
    SettingsError.inOrder.map SettingsError.message = [
      "config: server.judge_delay_ms must be positive",
      "config: server.unbound_ttl_ms must exceed judge_delay_ms",
      "config: server.secret (or server.key) is required",
      "config: client.server_addr is required",
      "config: client.proxy.name is required",
      "config: client.proxy.local_addr is required"] ∧
    (∀ s, f.settings = .ok s → f.Sound s) ∧
    ∀ d ∈ f.delays, d ≤ longestDelay :=
  ⟨fun _ => f.accounts_settings.eq_error_iff, f.accounts_settings.eq_ok_iff, rfl,
    fun _ hs => (File.settled hs).sound, f.delays_le⟩

/-- A file of a server that judges connections for as long as can be said, and of a client that
asks for a proxy of some name to some address. -/
def longestJudged (name localAddr : String) : File where
  adminAddr := ""
  logging := none
  server := some {
    listenAddr := none, authToken := none, secret := " s", key := some " "
    judgeDelay := some 9223372036854775807, heartbeatDelay := some (-1), allowHostOverride := false
    unboundTtl := none, defaultBindHost := some "", closeOnAuthFailure := false }
  client := some {
    serverAddr := "h:7000", authToken := none, minReconnectDelay := some 9223372036854775807
    maxReconnectDelay := none, heartbeatDelay := none, dialTimeout := none
    proxy := some {
      name, localAddr, remotePort := 0, remoteHost := some " ", secret := "s "
      key := some "\u2003k", dataHost := none } }

/-- With the longest delays settings are sound still, and of two faults the first is reported. -/
theorem refused_for_first_fault_longestJudged :
    (∃ s x, (longestJudged " web" "l:80").settings = .ok s ∧ s.server = some x ∧
      x.judgeDelay = 9223372036854775807 ∧ x.unboundTtl = 922337203685477580700 ∧
      (longestJudged " web" "l:80").Sound s) ∧
    (longestJudged "\u3000" "").settings = .error .proxyNameMissing ∧
    First (longestJudged "\u3000" "").Faulty .proxyNameMissing ∧
    922337203685477580700 ≤ longestDelay := by
  obtain ⟨s, hs⟩ : ∃ s, (longestJudged " web" "l:80").settings = .ok s := ⟨_, rfl⟩
  obtain ⟨-, -, -, hsound, hdelays⟩ := refused_for_first_fault (longestJudged " web" "l:80")
  obtain ⟨hrefused, -⟩ := refused_for_first_fault (longestJudged "\u3000" "")
  refine ⟨⟨s, ?_⟩, rfl, (hrefused _).mp rfl, hdelays _ ?_⟩
  · have h := hsound s hs
    cases hs
    exact ⟨_, rfl, rfl, rfl, rfl, h⟩
  · decide

end ReverseTunnel.Config

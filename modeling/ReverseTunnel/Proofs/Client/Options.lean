import ReverseTunnel.Client.Options
import ReverseTunnel.Proofs.Outcome

/-!
The options that a client is started with.

Of a proxy only the host of data connections is ever filled in (`normalize?_of_named`), and that of
a client whose server has an address the options are in force as soon as those of its proxy are
(`normalize?_of_proxy`).
-/

namespace ReverseTunnel.Client

namespace ProxyOptions

variable {p : ProxyOptions} {serverAddr : String}

/-- A proxy with a name and a local address is accepted, and gets a host to dial if it has none. -/
theorem normalize?_of_named (hname : Text.isBlankText p.name = false)
    (hlocal : Text.isBlankText p.localAddr = false) : p.normalize? serverAddr =
      .ok { p with
        dataHost := if Text.isBlankText p.dataHost then Address.hostOf serverAddr else p.dataHost } := by
  unfold normalize?
  rw [if_neg (by simp [hname]), if_neg (by simp [hlocal])]
  split <;> rfl

theorem normalize?_of_complete (hname : Text.isBlankText p.name = false)
    (hlocal : Text.isBlankText p.localAddr = false)
    (hhost : Text.isBlankText p.dataHost = true → Address.hostOf serverAddr = p.dataHost) :
    p.normalize? serverAddr = .ok p := by
  have hsame : (if Text.isBlankText p.dataHost then Address.hostOf serverAddr else p.dataHost) =
      p.dataHost := ite_eq_right_iff.mpr hhost
  rw [normalize?_of_named hname hlocal, hsame]

end ProxyOptions

namespace Options

variable {given o : Options} {p q : ProxyOptions}

theorem normalize?_eq (o : Options) : o.normalize? =
    if Text.trim o.serverAddr = "" then .error .serverAddrMissing
    else do
      let proxy ← o.proxy.mapM (ProxyOptions.normalize? (Text.trim o.serverAddr))
      return { o with
        serverAddr := Text.trim o.serverAddr, proxy
        dialTimeout := orDefault 5000 o.dialTimeout
        minReconnectDelay := orDefault 1000 o.minReconnectDelay
        heartbeatDelay := orDefault 10000 o.heartbeatDelay } := by
  unfold normalize?
  cases o.proxy <;> rfl

theorem normalize?_of_proxy (haddr : Text.trim given.serverAddr ≠ "") (hproxy : given.proxy = some p)
    (hq : p.normalize? (Text.trim given.serverAddr) = .ok q) :
    ∃ o, given.normalize? = .ok o ∧ o.proxy = some q := by
  rw [normalize?_eq, if_neg haddr, hproxy, Option.mapM_some, hq]
  exact ⟨_, rfl, rfl⟩

theorem delays_of_normalize? (h : given.normalize? = .ok o) :
    o.minReconnectDelay = (if given.minReconnectDelay = 0 then 1000 else given.minReconnectDelay) ∧
      o.maxReconnectDelay = given.maxReconnectDelay := by
  rw [normalize?_eq] at h
  split at h
  · cases h
  · obtain ⟨proxy, -, h⟩ := Outcome.bind_eq_ok.mp h
    cases h
    exact ⟨rfl, rfl⟩

end Options

end ReverseTunnel.Client

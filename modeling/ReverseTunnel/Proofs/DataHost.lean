import ReverseTunnel.Proofs.Address
import ReverseTunnel.Proofs.Client.Options
import ReverseTunnel.Proofs.Config.Settings

/-!
Where a client dials data connections if it is not told.

What is proved (`joined_host_comes_back`): such a client dials the host of the server's address,
at whatever port it is given. Where that address was joined from a host, the client dials the
host: neither the settings of a file nor the options of a client lose it, or the brackets that it
needs in front of a port. Two addresses are the same only if host and port are.

What is assumed: the host has no brackets in it, and is written as it is, with blanks around it,
or in one pair of brackets (`Address.Spells`).

What is not said: what becomes of an address that was not joined.
-/

namespace ReverseTunnel

open Address (Spells join)

variable {written host : String} {port : UInt16}

/-- A client of a server at an address dials data connections at the address's host. -/
theorem Client.Options.dataHost_of_normalize? {given : Client.Options} {p : Client.ProxyOptions}
    (h : Spells written host) (haddr : given.serverAddr = join written port)
    (hproxy : given.proxy = some p) (hname : Text.isBlankText p.name = false)
    (hlocal : Text.isBlankText p.localAddr = false) (hblank : Text.isBlankText p.dataHost = true) :
    ∃ o q, given.normalize? = .ok o ∧ o.proxy = some q ∧
      ∀ port', join q.dataHost port' = join written port' := by
  have htrim : Text.trim given.serverAddr = join written port := by rw [haddr, Address.trim_join]
  have hq : p.normalize? (Text.trim given.serverAddr) =
      .ok { p with dataHost := Address.hostOf (join written port) } := by
    rw [Client.ProxyOptions.normalize?_of_named hname hlocal, if_pos hblank, htrim]
  obtain ⟨o, ho, hoq⟩ := normalize?_of_proxy
    (htrim ▸ Address.join_ne_empty written port) hproxy hq
  exact ⟨o, _, ho, hoq, h.join_hostOf_join port⟩

theorem Config.ClientSection.dataHost_of_settings {cs : Config.ClientSection}
    {ps : Config.ProxySection} (h : Spells written host) (haddr : cs.serverAddr = join written port)
    (hproxy : cs.proxy = some ps) (hname : Text.trim ps.name ≠ "")
    (hlocal : Text.trim ps.localAddr ≠ "") (hblank : Config.trimmedOr ps.dataHost = "") :
    ∃ y q, cs.settings = .ok y ∧ y.proxy = some q ∧
      ∀ port', join q.dataHost port' = join written port' := by
  have htrim : Text.trim cs.serverAddr = join written port := by rw [haddr, Address.trim_join]
  obtain ⟨q, hq⟩ : ∃ q, ps.settings (join written port) = .ok q := by
    simp only [ProxySection.settings, if_neg hname, if_neg hlocal]
    exact ⟨_, rfl⟩
  have hhost : q.dataHost = Address.hostOf (join written port) := by
    rw [(ProxySection.yields hq).dataHost, filledOr_eq, if_pos hblank]
  obtain ⟨y, hy, hyq⟩ : ∃ y, cs.settings = .ok y ∧ y.proxy = some q := by
    rw [settings_eq, htrim, if_neg (Address.join_ne_empty written port), hproxy, Option.mapM_some, hq]
    exact ⟨_, rfl, rfl⟩
  exact ⟨y, q, hy, hyq, hhost ▸ h.join_hostOf_join port⟩

/-- A host without brackets comes back from every address that it is joined to, be it written
with blanks around it or, if it holds a colon, in brackets. Two hosts are joined to one address only
if they are the same host, and the ports are the same. With any other port the host of the address
makes the address that the host made, and so does the host of data connections of a client that is
told none, in the options that the client is started with and in the settings of a file. -/
theorem joined_host_comes_back (h : Spells written host) (port : UInt16) :
    Address.hostOf (join written port) = host ∧
    (∀ written' host' port', Spells written' host' →
      (join written port = join written' port' ↔ host = host' ∧ port = port')) ∧
    (∀ port', join (Address.hostOf (join written port)) port' = join written port') ∧
    (∀ (given : Client.Options) (p : Client.ProxyOptions), given.serverAddr = join written port →
      given.proxy = some p → Text.isBlankText p.name = false → Text.isBlankText p.localAddr = false →
      Text.isBlankText p.dataHost = true →
      ∃ o q, given.normalize? = .ok o ∧ o.proxy = some q ∧
        ∀ port', join q.dataHost port' = join written port') ∧
    (∀ (cs : Config.ClientSection) (ps : Config.ProxySection), cs.serverAddr = join written port →
      cs.proxy = some ps → Text.trim ps.name ≠ "" → Text.trim ps.localAddr ≠ "" →
      Config.trimmedOr ps.dataHost = "" →
      ∃ y q, cs.settings = .ok y ∧ y.proxy = some q ∧
        ∀ port', join q.dataHost port' = join written port') := by
  refine ⟨h.hostOf_join port, ?_, h.join_hostOf_join port, ?_, ?_⟩
  · intro written' host' port' h'
    exact h.join_inj h'
  · intro given p haddr hproxy hname hlocal hblank
    exact Client.Options.dataHost_of_normalize? h haddr hproxy hname hlocal hblank
  · intro cs ps haddr hproxy hname hlocal hblank
    exact Config.ClientSection.dataHost_of_settings h haddr hproxy hname hlocal hblank

/-- Options of a client whose server's address has brackets, and that is told no host to dial. -/
def hostlessOptions : Client.Options where
  serverAddr := "[::1]:7000"
  authToken := ""
  minReconnectDelay := 0
  maxReconnectDelay := 0
  heartbeatDelay := 0
  dialTimeout := 0
  proxy := some {
    name := "web", localAddr := "l:80", remoteHost := none, remotePort := 0, secret := "s", key := ""
    dataHost := " " }

/-- The section of a file that says the same. -/
def hostlessSection : Config.ClientSection where
  serverAddr := "[::1]:7000"
  authToken := none
  minReconnectDelay := none
  maxReconnectDelay := none
  heartbeatDelay := none
  dialTimeout := none
  proxy := some {
    name := "web", localAddr := "l:80", remotePort := 0, remoteHost := none, secret := "s"
    key := none, dataHost := some " " }

/-- Blanks and brackets are two ways to write one host, and a client that is told no host puts
the brackets back. -/
theorem joined_host_comes_back_blanksAndBrackets :
    Address.hostOf (join " ::1 " 7000) = "::1" ∧ Address.hostOf (join "[::1]" 7000) = "::1" ∧
    join " ::1 " 7000 = join "[::1]" 7000 ∧ join " ::1 " 7000 ≠ join "::" 7000 ∧
    (∃ o q, hostlessOptions.normalize? = .ok o ∧ o.proxy = some q ∧
      join q.dataHost 9000 = "[::1]:9000") ∧
    ∃ y q, hostlessSection.settings = .ok y ∧ y.proxy = some q ∧
      join q.dataHost 9000 = "[::1]:9000" := by
  have hblanks : Spells " ::1 " "::1" := .plain (by decide) (by decide)
  have hbrackets : Spells "[::1]" "::1" := .bracketed (by decide) (by decide) (by decide) (by decide)
  have hother : Spells "::" "::" := .plain (by decide) (by decide)
  obtain ⟨hplain, hinj, -⟩ := joined_host_comes_back hblanks 7000
  obtain ⟨hinside, -, -, hoptions, hsection⟩ := joined_host_comes_back hbrackets 7000
  obtain ⟨o, q, ho, hq, hjoin⟩ := hoptions hostlessOptions _ (by decide) rfl (by decide) (by decide)
    (by decide)
  obtain ⟨y, q', hy, hq', hjoin'⟩ := hsection hostlessSection _ (by decide) rfl (by decide)
    (by decide) (by decide)
  have hnine : join "[::1]" 9000 = "[::1]:9000" := by decide
  refine ⟨hplain, hinside, (hinj _ _ _ hbrackets).mpr ⟨rfl, rfl⟩, ?_, ⟨o, q, ho, hq, ?_⟩,
    ⟨y, q', hy, hq', ?_⟩⟩
  · intro hsame
    obtain ⟨hhost, -⟩ := (hinj _ _ _ hother).mp hsame
    revert hhost
    decide
  · rw [hjoin, hnine]
  · rw [hjoin', hnine]

end ReverseTunnel

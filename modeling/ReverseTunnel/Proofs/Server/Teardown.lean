import ReverseTunnel.Proofs.Proxy.Lingering
import ReverseTunnel.Proofs.Server.NameContest
import ReverseTunnel.Proofs.Server.Proxies

/-!
What a server forgets when a connection has finished.

What is proved (`teardown_is_complete`):
1. The proxies that are not stopped are at every moment those that are registered, a proxy is
   stopped only once its owner has finished, and nobody waits at a proxy that does not listen
   (`Matched`). So a connection that has finished owns nothing.
2. When its proxy has wound up (`TornDown`), nothing of it is left, for ever, but connections
   that are dropped as soon as they are judged, and the pairs, which go on.
3. While no listener has anything left to do (`Settled`), those that listen are those that are
   registered, and the gauge of active proxies counts them.

Nothing is assumed.

What is not said: when a connection finishes (`Proofs.Control.Dispatch`), and how long after that
its proxy winds up.
-/

namespace ReverseTunnel.Server

open Control
open Proxy (Table TableEvent)
open Session (ConnId IdSource)
open Wire (Message)

/-- Which proxy it is: whose, and since when. -/
def DataProxy.mark (p : DataProxy) : ConnId × Nat := (p.owner, p.startedAt)

def Registration.mark (p : Registration) : ConnId × Nat := (p.owner, p.startedAt)

namespace Run

variable {a : Seal.Aead} {r : Run} {c d : ConnId} {e : Event} {x : Run × List Effect}

/-! ## Proxies and registrations -/

/-- A proxy is stopped only once its owner has finished, listens until then, and lets
nobody wait when it listens no longer. -/
structure Fits (r : Run) (p : DataProxy) : Prop where
  stopped : p.stopped = true → r.Finished p.owner
  listens : p.stopped = false → p.listening = true
  empty : p.listening = false → p.table.waiting = []

/-- Each connection has one proxy at most, and those that are not stopped are registered. -/
structure Matched (r : Run) : Prop where
  owners : (r.proxies.map (·.owner)).Nodup
  kept : (r.proxies.filter (!·.stopped)).map (·.mark) = r.registry.proxies.map (·.mark)
  fits : ∀ p ∈ r.proxies, r.Fits p

section Change

variable {f : DataProxy → DataProxy} {ps : List DataProxy} (hps : ps = (r.changeProxy c f).proxies)

include hps

theorem owners_changeProxy (hf : ∀ p, (f p).owner = p.owner) :
    ps.map (·.owner) = r.proxies.map (·.owner) := by
  rw [hps, changeProxy, List.map_map]
  apply List.map_congr_left
  intro p _
  simp only [Function.comp_apply]
  split
  · exact hf p
  · rfl

theorem mem_changeProxy {p : DataProxy} (hp : p ∈ ps) :
    (p ∈ r.proxies ∧ p.owner ≠ c) ∨ ∃ q ∈ r.proxies, q.owner = c ∧ p = f q := by
  rw [hps] at hp
  obtain ⟨q, hq, rfl⟩ := List.mem_map.mp hp
  split
  · rename_i hc
    exact .inr ⟨q, hq, hc, rfl⟩
  · rename_i hc
    exact .inl ⟨hq, hc⟩

theorem kept_changeProxy (hmark : ∀ p, (f p).mark = p.mark)
    (hstopped : ∀ p, (f p).stopped = p.stopped) :
    (ps.filter (!·.stopped)).map (·.mark) = (r.proxies.filter (!·.stopped)).map (·.mark) := by
  rw [hps, changeProxy]
  induction r.proxies with
  | nil => rfl
  | cons p ps ih =>
    by_cases hc : p.owner = c <;> cases hp : p.stopped <;> simp_all

theorem listening_changeProxy (hf : ∀ p, (f p).listening = p.listening) :
    (ps.filter (·.listening)).length = (r.proxies.filter (·.listening)).length := by
  rw [hps, changeProxy, List.filter_map, List.length_map]
  congr 1
  apply List.filter_congr
  intro p _
  simp only [Function.comp_apply]
  split
  · exact hf p
  · rfl

end Change

theorem kept_stop (r : Run) (c : ConnId) :
    ((r.changeProxy c fun p => { p with stopped := true }).proxies.filter (!·.stopped)).map (·.mark) =
      ((r.proxies.filter (!·.stopped)).map (·.mark)).filter (·.1 ≠ c) := by
  rw [changeProxy]
  induction r.proxies with
  | nil => rfl
  | cons p ps ih =>
    by_cases hc : p.owner = c <;> cases hp : p.stopped <;> simp_all [DataProxy.mark]

theorem marks_forget (reg : Registry) (c : ConnId) :
    (reg.forget c).proxies.map (·.mark) = (reg.proxies.map (·.mark)).filter (·.1 ≠ c) := by
  rw [List.filter_map]
  rfl

theorem mem_of_proxy? {p : DataProxy} (hp : r.proxy? c = some p) : p ∈ r.proxies ∧ p.owner = c :=
  ⟨List.mem_of_find?_eq_some hp, by simpa using List.find?_some hp⟩

theorem Matched.eq_of_owner (h : r.Matched) {p q : DataProxy} (hp : r.proxy? c = some p)
    (hq : q ∈ r.proxies) (hqc : q.owner = c) : q = p := by
  obtain ⟨hmem, hpc⟩ := mem_of_proxy? hp
  exact List.inj_on_of_nodup_map h.owners hq hmem (hqc.trans hpc.symm)

theorem Fits.later {p : DataProxy} (h : r.Fits p) (hlater : ∀ d, r.Finished d → x.1.Finished d) :
    x.1.Fits p :=
  ⟨fun hs => hlater _ (h.stopped hs), h.listens, h.empty⟩

theorem Orderly.refuses (h : r.Orderly) (hc : r.Finished c) : (r.around c).ownerAccepts = false := by
  obtain ⟨l, hl, hfinished⟩ := hc
  have hsound := h.links c l hl
  obtain ⟨hread, -⟩ := hsound.drained (by simp [hfinished])
  exact Shut.refuses ⟨l, hl, hsound.shut hread⟩

/-- Who owns a proxy that is not stopped is registered for it. -/
theorem Matched.owns (h : r.Matched) {p : DataProxy} (hp : p ∈ r.proxies) (hs : p.stopped = false) :
    r.registry.owns p.owner = true := by
  have hmark : p.mark ∈ r.registry.proxies.map (·.mark) := by
    rw [← h.kept]
    exact List.mem_map.mpr ⟨p, List.mem_filter.mpr ⟨hp, by simp [hs]⟩, rfl⟩
  obtain ⟨q, hq, hsame⟩ := List.mem_map.mp hmark
  have howner : q.owner = p.owner := congrArg Prod.fst hsame
  exact List.any_eq_true.mpr ⟨q, hq, by simpa using howner⟩

theorem Orderly.open_of_take? (h : r.Orderly) {l rest : Link} {m : Message} (hl : r.link? c = some l)
    (ht : l.take? = some (m, rest)) : ¬ r.Finished c := by
  rintro ⟨k, hk, hfinished⟩
  rw [hl] at hk
  cases hk
  have hopen := Link.stage_of_take? (h.links c l hl) ht
  rw [hopen] at hfinished
  cases hfinished

theorem Matched.apart (h : r.Matched) (hopen : ¬ r.Finished c) (hsingle : r.registry.owns c = false)
    {p : DataProxy} (hp : p ∈ r.proxies) : p.owner ≠ c := by
  rintro rfl
  cases hs : p.stopped with
  | true => exact hopen ((h.fits p hp).stopped hs)
  | false => exact Bool.false_ne_true (hsingle.symm.trans (h.owns hp hs))

theorem Matched.changes (h : r.Matched) {f : DataProxy → DataProxy}
    (hproxies : x.1.proxies = (r.changeProxy c f).proxies)
    (hregistered : x.1.registry.proxies = r.registry.proxies)
    (hlater : ∀ d, r.Finished d → x.1.Finished d) (hmark : ∀ p, (f p).mark = p.mark)
    (hstopped : ∀ p, (f p).stopped = p.stopped)
    (hfits : ∀ p ∈ r.proxies, p.owner = c → x.1.Fits (f p)) : x.1.Matched where
  owners := by
    rw [owners_changeProxy hproxies fun p => congrArg Prod.fst (hmark p)]
    exact h.owners
  kept := by
    rw [kept_changeProxy hproxies hmark hstopped, hregistered]
    exact h.kept
  fits p hp := by
    rcases mem_changeProxy hproxies hp with ⟨hp, -⟩ | ⟨q, hq, hqc, rfl⟩
    · exact (h.fits p hp).later hlater
    · exact hfits q hq hqc

/-- Proxies and registrations stay matched. -/
theorem Matched.shift (h : r.Matched) (ho : r.Orderly) (hs : Shift r e x)
    (hlater : ∀ d, r.Finished d → x.1.Finished d) : x.1.Matched := by
  cases hs with
  | rests _ _ hproxies hregistered =>
    refine ⟨hproxies ▸ h.owners, ?_, fun p hp => (h.fits p (hproxies ▸ hp)).later hlater⟩
    rw [hproxies, hregistered]
    exact h.kept
  | stops c y _ hfinished hproxies hregistered =>
    refine ⟨?_, ?_, fun p hp => ?_⟩
    · rw [owners_changeProxy hproxies fun _ => rfl]
      exact h.owners
    · rw [hproxies, hregistered, kept_stop, marks_forget, h.kept]
    · rcases mem_changeProxy hproxies hp with ⟨hp, -⟩ | ⟨q, hq, rfl, rfl⟩
      · exact (h.fits p hp).later hlater
      · exact ⟨fun _ => hfinished, nofun, (h.fits q hq).empty⟩
  | starts c bind _ p hhandled howner hsingle hproxies hregistered =>
    obtain ⟨l, m, rest, hl, ht⟩ := hhandled
    refine ⟨?_, ?_, fun q hq => ?_⟩
    · rw [hproxies, List.map_append, List.map_singleton, List.nodup_append]
      refine ⟨h.owners, List.nodup_singleton _, ?_⟩
      intro d hd d' hd'
      obtain ⟨q, hq, rfl⟩ := List.mem_map.mp hd
      rw [List.mem_singleton.mp hd']
      exact (h.apart (ho.open_of_take? hl ht) hsingle hq).trans_eq howner.symm
    · rw [hproxies, hregistered, List.filter_append, List.map_append, List.map_append, h.kept]
      rfl
    · rw [hproxies] at hq
      rcases List.mem_append.mp hq with hq | hq
      · exact (h.fits q hq).later hlater
      · rw [List.mem_singleton.mp hq]
        exact ⟨nofun, fun _ => rfl, nofun⟩
  | works c _ te _ p sweeps he hp hproxies hregistered =>
    refine h.changes hproxies hregistered hlater (fun _ => rfl) (fun _ => rfl) fun q hq hqc => ?_
    obtain rfl := h.eq_of_owner hp hq hqc
    have hfits := h.fits q hq
    refine ⟨fun hs => hlater _ (hfits.stopped hs), hfits.listens, fun hdeaf => ?_⟩
    have hstopped : q.stopped = true := by
      by_contra hnot
      have hlistens := hfits.listens (by simpa using hnot)
      exact Bool.false_ne_true (hdeaf.symm.trans hlistens)
    exact Table.waiting_step (hfits.empty hdeaf) (ho.refuses (hqc ▸ hfits.stopped hstopped)) te
  | winds c _ p hp hstopped hlistening hproxies hregistered =>
    refine h.changes hproxies hregistered hlater (fun _ => rfl) (fun _ => rfl) fun q hq hqc => ?_
    obtain rfl := h.eq_of_owner hp hq hqc
    have hfinished := (h.fits q hq).stopped hstopped
    exact ⟨fun _ => hlater _ hfinished, fun hnot => absurd (hnot.symm.trans hstopped) Bool.false_ne_true,
      fun _ => rfl⟩

/-! ## The gauge -/

/-- The proxies whose listeners run. -/
def listeners (r : Run) : List DataProxy := r.proxies.filter (·.listening)

theorem listeners_of_deaf (h : r.Matched) {p : DataProxy} (hp : r.proxy? c = some p)
    (hlistening : p.listening = true) {f : DataProxy → DataProxy} (hf : (f p).listening = false) :
    (r.changeProxy c f).listeners.length + 1 = r.listeners.length := by
  obtain ⟨hpc, l, m, hsplit, hl, hm⟩ :=
    Keyed.alone_of_find? (f := DataProxy.owner) (k := c) hp h.owners
  have hchanged : (r.changeProxy c f).proxies = l ++ f p :: m := by
    rw [changeProxy, hsplit]
    exact Keyed.map_at_of_alone f hpc hl hm
  simp only [listeners, hchanged, hsplit, List.filter_append, List.filter_cons, hf, hlistening,
    Bool.false_eq_true, if_false, if_true, List.length_append, List.length_cons]
  omega

theorem Shift.listeners (h : r.Matched) (hs : Shift r e x) :
    (x.1.listeners.length : Int) = r.listeners.length + gained x.2 := by
  cases hs with
  | rests _ _ hproxies _ hgained =>
    rw [Run.listeners, hproxies, hgained]
    exact (Int.add_zero _).symm
  | stops c y _ _ hproxies _ hgained =>
    rw [Run.listeners, listening_changeProxy hproxies fun _ => rfl, hgained]
    exact (Int.add_zero _).symm
  | starts c bind _ p _ _ _ hproxies _ hgained =>
    rw [Run.listeners, hproxies, hgained, List.filter_append, List.length_append]
    rfl
  | works c _ te _ p sweeps _ _ hproxies _ hgained =>
    rw [Run.listeners, listening_changeProxy hproxies fun _ => rfl, hgained]
    exact (Int.add_zero _).symm
  | winds c _ p hp _ hlistening hproxies _ hgained =>
    have hfewer := listeners_of_deaf h hp hlistening (f := fun q =>
      { q with listening := false, table := (p.table.clear (r.around c)).table }) rfl
    rw [Run.listeners, ← hproxies] at hfewer
    rw [hgained, ← hfewer, Run.listeners]
    omega

/-! ## Winding up -/

/-- A connection has finished, and the listener of its proxy has nothing left to do. -/
structure TornDown (r : Run) (c : ConnId) : Prop where
  finished : r.Finished c
  wound : r.wind c = (r, [])

/-- No listener has anything left to do. -/
def Settled (r : Run) : Prop := ∀ c, r.wind c = (r, [])

theorem wind_wind (r : Run) (c : ConnId) : (r.wind c).1.wind c = ((r.wind c).1, []) := by
  cases hp : r.proxy? c with
  | none => simp only [wind, hp]
  | some p =>
    by_cases hends : p.stopped = true ∧ p.listening = true
    · obtain ⟨hproxies, -⟩ := proxies_changeProxy_onTable hp
        (f := fun p => { p with listening := false }) (fun _ => rfl) rfl .clear fun _ h => by cases h
      have hwound : (r.wind c).1.proxies = (r.changeProxy c fun q =>
          { q with listening := false, table := (p.table.clear (r.around c)).table }).proxies := by
        simp only [wind, hp, if_pos hends]
        exact hproxies
      have hdeaf : (r.wind c).1.proxy? c =
          some { p with listening := false, table := (p.table.clear (r.around c)).table } := by
        have hfind := proxy?_changeProxy r c c (f := fun q =>
          { q with listening := false, table := (p.table.clear (r.around c)).table }) fun _ => rfl
        rw [if_pos rfl, hp] at hfind
        rw [proxy?, hwound]
        exact hfind
      rw [wind.eq_def (r.wind c).1, hdeaf]
      simp
    · simp only [wind, hp, if_neg hends]

/-- A proxy whose listener has nothing left to do is not stopped, or listens no longer. -/
theorem Matched.deaf_of_wound (h : r.Matched) (hwound : r.wind c = (r, [])) {p : DataProxy}
    (hp : p ∈ r.proxies) (hpc : p.owner = c) (hstopped : p.stopped = true) : p.listening = false := by
  have hfind : r.proxy? c = some p :=
    hpc ▸ Keyed.find?_of_mem (f := DataProxy.owner) h.owners hp
  by_contra hnot
  have hlistening : p.listening = true := by simpa using hnot
  -- winding up would be counted
  have hcounts : (r.wind c).2 ≠ [] := by
    simp only [wind, hfind, if_pos (And.intro hstopped hlistening)]
    simp
  exact hcounts (congrArg Prod.snd hwound)

theorem Matched.gone (h : r.Matched) (ho : r.Orderly) (hc : r.Finished c) :
    r.registry.isAuthenticated c = false ∧ r.registry.owns c = false ∧
      ∀ p ∈ r.proxies, p.owner = c → p.stopped = true := by
  obtain ⟨hauth, howns⟩ := ho.unknown hc
  refine ⟨hauth, howns, fun p hp hpc => ?_⟩
  by_contra hnot
  have hkept := h.owns hp (by simpa using hnot)
  rw [hpc] at hkept
  exact Bool.false_ne_true (howns.symm.trans hkept)

/-- Where no listener has anything left to do, those that run are those of the registered
proxies. -/
theorem Matched.settled (h : r.Matched) (hsettled : r.Settled) :
    r.listeners.map (·.mark) = r.registry.proxies.map (·.mark) := by
  rw [← h.kept, listeners]
  congr 1
  apply List.filter_congr
  intro p hp
  cases hs : p.stopped with
  | true => exact h.deaf_of_wound (hsettled _) hp rfl hs
  | false => exact (h.fits p hp).listens hs

theorem wound_of_deaf (hdeaf : ∀ p ∈ r.proxies, p.owner = c → p.listening = false) :
    r.wind c = (r, []) := by
  unfold wind
  split
  · rfl
  · rename_i p hp
    obtain ⟨hmem, hpc⟩ := mem_of_proxy? hp
    have hquiet := hdeaf p hmem hpc
    exact if_neg fun hends => Bool.false_ne_true (hquiet.symm.trans hends.2)

theorem Shift.deaf (hs : Shift r e x) (ho : r.Orderly) (hc : r.Finished c)
    (hdeaf : ∀ p ∈ r.proxies, p.owner = c → p.listening = false) :
    ∀ p ∈ x.1.proxies, p.owner = c → p.listening = false := by
  intro p hp hpc
  cases hs with
  | rests _ _ hproxies => exact hdeaf p (hproxies ▸ hp) hpc
  | stops d y _ _ hproxies =>
    rcases mem_changeProxy hproxies hp with ⟨hp, -⟩ | ⟨q, hq, -, rfl⟩
    · exact hdeaf p hp hpc
    · exact hdeaf q hq hpc
  | starts d bind _ q hhandled howner _ hproxies =>
    obtain ⟨l, m, rest, hl, ht⟩ := hhandled
    rw [hproxies] at hp
    rcases List.mem_append.mp hp with hp | hp
    · exact hdeaf p hp hpc
    · rw [List.mem_singleton.mp hp] at hpc
      have hcd : d = c := howner.symm.trans hpc
      exact absurd (hcd ▸ hc) (ho.open_of_take? hl ht)
  | works d _ te _ q sweeps _ _ hproxies =>
    rcases mem_changeProxy hproxies hp with ⟨hp, -⟩ | ⟨k, hk, -, rfl⟩
    · exact hdeaf p hp hpc
    · exact hdeaf k hk hpc
  | winds d _ q _ _ _ hproxies =>
    rcases mem_changeProxy hproxies hp with ⟨hp, -⟩ | ⟨k, hk, -, rfl⟩
    · exact hdeaf p hp hpc
    · rfl

theorem TornDown.step (h : r.TornDown c) (ho : r.Orderly) (hm : r.Matched) (a : Seal.Aead) (e : Event) :
    (r.step a e).1.TornDown c := by
  refine ⟨(turn a r e).finished h.finished, wound_of_deaf ((shift a r e).deaf ho h.finished ?_)⟩
  intro p hp hpc
  obtain ⟨-, -, hstopped⟩ := hm.gone ho h.finished
  exact hm.deaf_of_wound h.wound hp hpc (hstopped p hp hpc)

/-! ## The table of a proxy -/

theorem table_step (a : Seal.Aead) (e : Event) {p : DataProxy} (hp : r.proxy? c = some p) :
    ∃ p', (r.step a e).1.proxy? c = some p' ∧ (p'.table = p.table ∨
      ∃ te, Occurs r c e te ∧ (∀ key, te = .accept key → p.listening = true) ∧
        p'.table = (p.table.step (r.around c) te).table ∧
        ∀ key, .drop key ∈ (p.table.step (r.around c) te).effects →
          .table c (.drop key) ∈ (r.step a e).2) := by
  have hsame : ((r.step a e).1.proxy? c).map (·.table) = (r.proxy? c).map (·.table) →
      ∃ p', (r.step a e).1.proxy? c = some p' ∧ p'.table = p.table := fun h => by
    rw [hp] at h
    exact Option.map_eq_some_iff.mp h
  by_cases he : e.ofProxy? = some c
  · by_cases hdeaf : (∃ key, e = .table c (.accept key)) ∧ p.listening = false
    · obtain ⟨⟨key, rfl⟩, hdeaf⟩ := hdeaf
      refine ⟨p, ?_, .inl rfl⟩
      rw [step, onTable_of_deaf hp hdeaf]
      exact hp
    · rcases works_or_still a r he with ⟨q, te, hq, ho, hworks⟩ | ⟨hstill, -⟩
      · rw [hp] at hq
        cases hq
        obtain ⟨p', hp', htable⟩ := Option.map_eq_some_iff.mp hworks.proxy
        refine ⟨p', hp', .inr ⟨te, ho, ?_, htable, hworks.drops⟩⟩
        rintro key rfl
        cases ho
        by_contra hnot
        exact hdeaf ⟨⟨key, rfl⟩, by simpa using hnot⟩
      · obtain ⟨p', hp', htable⟩ := hsame hstill.proxy
        exact ⟨p', hp', .inl htable⟩
  · rcases other_cases a r he with hother | ⟨hnone, -⟩
    · obtain ⟨p', hp', htable⟩ := hsame hother
      exact ⟨p', hp', .inl htable⟩
    · rw [hnone] at hp
      cases hp

/-- A pair stays one until its own relay ends. -/
theorem pairs_step (a : Seal.Aead) {p : DataProxy} (hp : r.proxy? c = some p) {session : UInt32}
    {user data : Nat} (hpairs : p.table.Pairs session user data)
    (hrelay : ∀ y, e ≠ .table c (.relay data y)) :
    ∃ p', (r.step a e).1.proxy? c = some p' ∧ p'.table.Pairs session user data := by
  obtain ⟨p', hp', hsame | ⟨te, ho, -, htable, -⟩⟩ := table_step a e hp
  · exact ⟨p', hp', hsame ▸ hpairs⟩
  · refine ⟨p', hp', ?_⟩
    rw [htable]
    apply Table.pairs_last hpairs
    rintro y rfl
    cases ho
    exact hrelay y rfl

/-- Nobody comes in any more at the proxy of a connection or is paired there, and whoever
is judged is dropped. -/
def Fades (r : Run) (c : ConnId) (x : Run × List Effect) : Prop :=
  ∀ p, r.proxy? c = some p → ∃ p', x.1.proxy? c = some p' ∧
    (∀ key, p'.table.Judges key → p.table.Judges key) ∧
    (∀ key, p.table.Judges key → ¬ p'.table.Judges key → .table c (.drop key) ∈ x.2) ∧
    p'.table.backs.Sublist p.table.backs

theorem TornDown.fades (h : r.TornDown c) (ho : r.Orderly) (hm : r.Matched) (a : Seal.Aead)
    (e : Event) : r.Fades c (r.step a e) := by
  intro p hp
  obtain ⟨hmem, hpc⟩ := mem_of_proxy? hp
  obtain ⟨-, -, hstopped⟩ := hm.gone ho h.finished
  have hdeaf := hm.deaf_of_wound h.wound hmem hpc (hstopped p hmem hpc)
  obtain ⟨p', hp', hsame | ⟨te, -, hopen, htable, hdrops⟩⟩ := table_step a e hp
  · refine ⟨p', hp', fun key hj => hsame ▸ hj, fun key hj hnot => absurd (hsame ▸ hj) hnot, ?_⟩
    rw [hsame]
  · have hlingers := Table.lingers_step (w := r.around c) (e := te) ((hm.fits p hmem).empty hdeaf)
      (ho.refuses h.finished) fun key hkey => Bool.false_ne_true (hdeaf.symm.trans (hopen key hkey))
    refine ⟨p', hp', ?_, ?_, ?_⟩
    · rw [htable]
      exact hlingers.judged
    · rw [htable]
      exact fun key hj hnot => hdrops key (hlingers.drops key hj hnot)
    · rw [htable]
      exact hlingers.backs

/-! ## At every moment -/

variable {o : Options} {ids : IdSource}

theorem matched (course : Course (step a) (start o ids)) (n : Nat) : (course.state n).Matched := by
  induction n with
  | zero => exact ⟨List.nodup_nil, rfl, nofun⟩
  | succ n ih =>
    exact ih.shift (orderly course n) (shift a _ _) fun d hd => (turn a _ _).finished hd

/-- What was counted before a moment. -/
def metrics (course : Course (step a) (start o ids)) (n : Nat) : Metrics :=
  Metrics.addAll {} ((course.effects n).filterMap Effect.count?)

/-- The gauge of active proxies reads how many listeners run. -/
theorem gauge_eq (course : Course (step a) (start o ids)) (n : Nat) :
    (metrics course n).total .dataProxiesActive = (course.state n).listeners.length := by
  have hgained : ∀ n, gained (course.effects n) = (course.state n).listeners.length := by
    intro n
    induction n with
    | zero => rfl
    | succ n ih =>
      have hstep := (shift a (course.state n) (course.happens n)).listeners (matched course n)
      rw [Course.effects, gained_append, ih]
      exact hstep.symm
  rw [metrics, Metrics.total_addAll]
  exact (Int.zero_add _).trans (hgained n)

/-- The teardown of a connection is complete. Once it has finished and the listener of its
proxy has wound up, it is torn down, and then for ever: it is not authenticated, it owns no
proxy, the listener of its proxy does not run, nobody waits at it or comes in, and whoever
is still judged there is dropped when that ends. Pairs go on until their own relays end.
Whenever no listener has anything left to do, those that run are the registered proxies,
and the gauge reads their number. -/
theorem teardown_is_complete (course : Course (step a) (start o ids)) :
    (∀ c n, (course.state n).Finished c → course.happens n = .wind c →
      (course.state (n + 1)).TornDown c) ∧
    (∀ c n, (course.state n).TornDown c → ∀ j, n ≤ j →
      (course.state j).registry.isAuthenticated c = false ∧
      (course.state j).registry.owns c = false ∧
      (∀ p ∈ (course.state j).proxies, p.owner = c → p.listening = false ∧ p.table.waiting = []) ∧
      (course.state j).Fades c (course.state (j + 1), course.effectsAt j)) ∧
    (∀ c n p session user data, (course.state n).proxy? c = some p →
      p.table.Pairs session user data → (∀ y, course.happens n ≠ .table c (.relay data y)) →
      ∃ p', (course.state (n + 1)).proxy? c = some p' ∧ p'.table.Pairs session user data) ∧
    ∀ n, (course.state n).Settled →
      (course.state n).listeners.map (·.mark) = (course.state n).registry.proxies.map (·.mark) ∧
      (metrics course n).total .dataProxiesActive = (course.state n).registry.proxies.length := by
  refine ⟨?_, ?_, fun c n p session user data hp hpairs hrelay => pairs_step a hp hpairs hrelay, ?_⟩
  · intro c n hfinished hwind
    refine ⟨(turn a _ _).finished hfinished, ?_⟩
    rw [Course.state, hwind]
    exact wind_wind _ c
  · intro c n htorn j hnj
    have hlater : (course.state j).TornDown c := by
      induction hnj with
      | refl => exact htorn
      | step _ ih => exact ih.step (orderly course _) (matched course _) a _
    have hmatched := matched course j
    obtain ⟨hauth, howns, hstopped⟩ := hmatched.gone (orderly course j) hlater.finished
    refine ⟨hauth, howns, fun p hp hpc => ?_, hlater.fades (orderly course j) hmatched a _⟩
    have hdeaf := hmatched.deaf_of_wound hlater.wound hp hpc (hstopped p hp hpc)
    exact ⟨hdeaf, (hmatched.fits p hp).empty hdeaf⟩
  · intro n hsettled
    have hlisteners := (matched course n).settled hsettled
    refine ⟨hlisteners, ?_⟩
    have hlength := congrArg List.length hlisteners
    rw [List.length_map, List.length_map] at hlength
    rw [gauge_eq, hlength]

/-- A connection is granted a proxy and leaves while a connection is judged there and a
user is paired; the proxy winds up, and then the one that is judged shows that it is a
user. -/
def leavesWhileJudged : Course (step webCipher) (start webOptions .fresh) :=
  .of (comesAndAsks 1 ++ [.handle ⟨1⟩ bindsAll, .table ⟨1⟩ (.accept 1),
    .table ⟨1⟩ (.receive 1 (.bytes [71])), .table ⟨1⟩ (.accept 2),
    .table ⟨1⟩ (.receive 2 (.bytes [71])), .table ⟨1⟩ (.look 2), .table ⟨1⟩ (.accept 3),
    .table ⟨1⟩ (.receive 3 (.bytes (Session.Handshake.encode 1))), .table ⟨1⟩ (.look 3),
    .link ⟨1⟩ .receiveEnd, .link ⟨1⟩ .read, .link ⟨1⟩ .failWriting, .link ⟨1⟩ (.beginFlush 0),
    .link ⟨1⟩ .finish, .wind ⟨1⟩, .table ⟨1⟩ (.look 1)]) (.advance 0)

theorem teardown_is_complete_leavesWhileJudged :
    (leavesWhileJudged.state 19).Finished ⟨1⟩ ∧ (leavesWhileJudged.state 20).TornDown ⟨1⟩ ∧
      .table ⟨1⟩ (.drop 1) ∈ leavesWhileJudged.effectsAt 20 ∧
      ∃ p, (leavesWhileJudged.state 20).proxy? ⟨1⟩ = some p ∧ p.table.Pairs 1 2 3 := by
  obtain ⟨htorn, hlater, hpairs, -⟩ := teardown_is_complete leavesWhileJudged
  have hfinished : (leavesWhileJudged.state 19).Finished ⟨1⟩ := by
    refine ⟨((leavesWhileJudged.state 19).link? ⟨1⟩).get (by decide +kernel), ?_, ?_⟩
    · decide +kernel
    · decide +kernel
  have hdown := htorn ⟨1⟩ 19 hfinished rfl
  obtain ⟨-, -, -, hfades⟩ := hlater ⟨1⟩ 20 hdown 20 le_rfl
  obtain ⟨p, hp, hpair⟩ : ∃ p, (leavesWhileJudged.state 19).proxy? ⟨1⟩ = some p ∧
      p.table.Pairs 1 2 3 := by
    refine ⟨((leavesWhileJudged.state 19).proxy? ⟨1⟩).get (by decide +kernel), by decide +kernel, ?_⟩
    show ∃ q ∈ _, _
    decide +kernel
  refine ⟨hfinished, hdown, ?_, hpairs ⟨1⟩ 19 p 1 2 3 hp hpair nofun⟩
  -- the one that was judged is judged until it is looked at
  have hjudged : ∀ q ∈ (leavesWhileJudged.state 20).proxies, q.table.judging.map (·.party.key) = [1] := by
    decide +kernel
  have hgone : ∀ q ∈ (leavesWhileJudged.state (20 + 1)).proxies, q.table.judging = [] := by decide +kernel
  obtain ⟨q, hq⟩ : ∃ q, (leavesWhileJudged.state 20).proxy? ⟨1⟩ = some q :=
    Option.isSome_iff_exists.mp (by decide +kernel)
  obtain ⟨q', hq', -, hdrops, -⟩ := hfades q hq
  have hthere : q.table.Judges 1 := by
    show ∃ j ∈ _, _
    rw [← List.mem_map, hjudged q (mem_of_proxy? hq).1]
    exact List.mem_singleton_self _
  have hleft : ¬ q'.table.Judges 1 := by
    rintro ⟨j, hj, -⟩
    rw [hgone q' (mem_of_proxy? hq').1] at hj
    cases hj
  have hdropped := hdrops 1 hthere hleft
  dsimp only at hdropped
  exact hdropped

end Run

end ReverseTunnel.Server

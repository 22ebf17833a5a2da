import ReverseTunnel.Proofs.Tunnel.System

/-!
The client's end of the lines.

Every line belongs to one attempt of the client, which keeps at its stage what the line and
the connection to the backend have carried (`Kept`), and no connection of the client is on
two lines. This holds whatever happens to the client, to its lines and to the backend
(`kept_step`); what happens to the server does not concern it.
-/

namespace ReverseTunnel

open Client (Attempt Loop LoopEvent LoopEffect DialBack DialEvent Keeps Carries)
open Session (ConnId)
open Traffic (sending arriving)

namespace Tunnel

variable {a : Seal.Aead} {x z : Tunnel} {p q : Attempt} {l m : Line} {d d' : DialBack}
  {de : DialEvent} {now key : Nat} {b : Arrival}

theorem lines_setLine (x : Tunnel) (p q : Attempt) (l : Line) :
    (x.setLine p l).lines q = if q = p then some l else x.lines q := Function.update_apply _ _ _ _

/-- Every line is kept by its attempt, and has its connections for itself. -/
structure Kept (x : Tunnel) : Prop where
  fresh : ∀ k, x.nextOutbound ≤ k → x.outbound k = {}
  known : ∀ p l, x.lines p = some l → ∀ k, l.Has k → k < x.nextOutbound
  apart : ∀ p q l m k, x.lines p = some l → x.lines q = some m → l.Has k → m.Has k → p = q
  split : ∀ p l, x.lines p = some l → l.backend ≠ some l.near
  serves : ∀ p l, x.lines p = some l → ∃ d, x.client.attempt? p = some d ∧
    Keeps d.session x.outbound l.near l.backend d.stage
  unlined : ∀ p d, x.client.attempt? p = some d → x.lines p = none → d.keys = []

/-- Only the client and its connections matter to this. -/
theorem Kept.congr (h : x.Kept) (hclient : z.client = x.client) (houtbound : z.outbound = x.outbound)
    (hnext : z.nextOutbound = x.nextOutbound) (hlines : z.lines = x.lines) : z.Kept := by
  obtain ⟨hfresh, hknown, hapart, hsplit, hserves, hunlined⟩ := h
  refine ⟨?_, ?_, ?_, ?_, ?_, ?_⟩
  · rwa [hnext, houtbound]
  · rwa [hlines, hnext]
  · rwa [hlines]
  · rwa [hlines]
  · rwa [hlines, hclient, houtbound]
  · rwa [hclient, hlines]

theorem Kept.letIn (h : x.Kept) (hl : x.lines p = some l) (far : Nat) :
    (x.setLine p { l with far := some far }).Kept := by
  -- every line was one with the same connections of the client
  have hlines : ∀ q m, (x.setLine p { l with far := some far }).lines q = some m →
      ∃ m₀, x.lines q = some m₀ ∧ m₀.near = m.near ∧ m₀.backend = m.backend := by
    intro q m hm
    rw [lines_setLine] at hm
    split at hm
    · rename_i hq
      obtain rfl := Option.some.inj hm
      exact ⟨l, hq ▸ hl, rfl, rfl⟩
    · exact ⟨m, hm, rfl, rfl⟩
  have hhas : ∀ {m₀ m : Line} {k}, m₀.near = m.near → m₀.backend = m.backend → m.Has k → m₀.Has k :=
    fun hnear hbackend hk => hk.imp (fun h => h.trans hnear.symm) (fun h => hbackend.trans h)
  refine ⟨h.fresh, fun q m hm k hk => ?_, fun q r m m' k hm hm' hkm hkm' => ?_, fun q m hm => ?_,
    fun q m hm => ?_, fun q d hd hnone => ?_⟩
  · obtain ⟨m₀, hm₀, hnear, hbackend⟩ := hlines q m hm
    exact h.known q m₀ hm₀ k (hhas hnear hbackend hk)
  · obtain ⟨m₀, hm₀, hnear, hbackend⟩ := hlines q m hm
    obtain ⟨m₁, hm₁, hnear', hbackend'⟩ := hlines r m' hm'
    exact h.apart q r m₀ m₁ k hm₀ hm₁ (hhas hnear hbackend hkm) (hhas hnear' hbackend' hkm')
  · obtain ⟨m₀, hm₀, hnear, hbackend⟩ := hlines q m hm
    rw [← hnear, ← hbackend]
    exact h.split q m₀ hm₀
  · obtain ⟨m₀, hm₀, hnear, hbackend⟩ := hlines q m hm
    rw [← hnear, ← hbackend]
    exact h.serves q m₀ hm₀
  · rw [lines_setLine] at hnone
    split at hnone
    · cases hnone
    · exact h.unlined q d hd hnone

theorem Kept.turn (h : x.Kept)
    (hattempt : ∀ q, z.client.attempt? q = if q = p then some d' else x.client.attempt? q)
    (hlines : ∀ q, q ≠ p → z.lines q = x.lines q) (hnext : x.nextOutbound ≤ z.nextOutbound)
    (hfresh : ∀ k, z.nextOutbound ≤ k → z.outbound k = {})
    (hothers : ∀ q m k, q ≠ p → x.lines q = some m → m.Has k → z.outbound k = x.outbound k)
    (hnone : z.lines p = none → d'.keys = [])
    (hsome : ∀ l, z.lines p = some l → Keeps d'.session z.outbound l.near l.backend d'.stage ∧
      l.backend ≠ some l.near ∧ ∀ k, l.Has k → k < z.nextOutbound ∧
        (x.nextOutbound ≤ k ∨ ∃ l₀, x.lines p = some l₀ ∧ l₀.Has k)) : z.Kept := by
  -- a connection of another line is none of this attempt
  have hforeign : ∀ q l m k, q ≠ p → z.lines p = some l → x.lines q = some m → l.Has k → ¬m.Has k := by
    intro q l m k hq hl hm hk hkm
    rcases ((hsome l hl).2.2 k hk).2 with hnew | ⟨l₀, hl₀, hk₀⟩
    · exact Nat.not_lt.mpr hnew (h.known q m hm k hkm)
    · exact hq (h.apart q p m l₀ k hm hl₀ hkm hk₀)
  refine ⟨hfresh, ?_, ?_, ?_, ?_, ?_⟩
  · intro q m hm k hk
    by_cases hq : q = p
    · subst hq
      exact ((hsome m hm).2.2 k hk).1
    · exact Nat.lt_of_lt_of_le (h.known q m (hlines q hq ▸ hm) k hk) hnext
  · intro q r m l k hm hl hkm hkl
    by_cases hq : q = p <;> by_cases hr : r = p
    · exact hq.trans hr.symm
    · subst hq
      exact absurd hkl (hforeign r m l k hr hm (hlines r hr ▸ hl) hkm)
    · subst hr
      exact absurd hkm (hforeign q l m k hq hl (hlines q hq ▸ hm) hkl)
    · exact h.apart q r m l k (hlines q hq ▸ hm) (hlines r hr ▸ hl) hkm hkl
  · intro q m hm
    by_cases hq : q = p
    · subst hq
      exact (hsome m hm).2.1
    · exact h.split q m (hlines q hq ▸ hm)
  · intro q m hm
    rw [hattempt]
    by_cases hq : q = p
    · subst hq
      exact ⟨d', if_pos rfl, (hsome m hm).1⟩
    · rw [if_neg hq]
      have hm' : x.lines q = some m := hlines q hq ▸ hm
      obtain ⟨d, hd, hkeeps⟩ := h.serves q m hm'
      exact ⟨d, hd, hkeeps.congr fun k hk => hothers q m k hq hm' hk⟩
  · intro q e he hm
    rw [hattempt] at he
    by_cases hq : q = p
    · subst hq
      rw [if_pos rfl] at he
      cases he
      exact hnone hm
    · rw [if_neg hq] at he
      exact h.unlined q e he (hlines q hq ▸ hm)

theorem Kept.not_mem_keys (h : x.Kept) (hd : x.client.attempt? p = some d) (hq : q ≠ p)
    (hm : x.lines q = some m) (hkey : m.Has key) : key ∉ d.keys := by
  intro hmem
  cases hl : x.lines p with
  | none =>
    rw [h.unlined p d hd hl] at hmem
    cases hmem
  | some l =>
    obtain ⟨d₀, hd₀, hkeeps⟩ := h.serves p l hl
    obtain rfl : d₀ = d := Option.some.inj (hd₀.symm.trans hd)
    exact hq (h.apart q p m l key hm hl hkey (hkeeps.mem_keys hmem))

theorem Kept.begins (h : x.Kept) {y : Loop × List LoopEffect} (hy : x.client.Begins y) :
    (x.onClient y).1.Kept := by
  have houtbound : sending x.outbound (Client.outgoing y.2) = x.outbound :=
    funext fun k => Traffic.sending_of_silent (hy.silent k)
  have hserves : ∀ p l, x.lines p = some l → ∃ d, y.1.attempt? p = some d ∧
      Keeps d.session x.outbound l.near l.backend d.stage := by
    intro p l hl
    obtain ⟨d, hd, hkeeps⟩ := h.serves p l hl
    rcases hy.attempt p with hsame | ⟨hnone, -⟩
    · exact ⟨d, hsame.trans hd, hkeeps⟩
    · cases hnone.symm.trans hd
  have hunlined : ∀ p d, y.1.attempt? p = some d → x.lines p = none → d.keys = [] := by
    intro p d hd hl
    rcases hy.attempt p with hsame | ⟨-, d', deadline, hd', hstage⟩
    · exact h.unlined p d (hsame.symm.trans hd) hl
    · obtain rfl : d' = d := Option.some.inj (hd'.symm.trans hd)
      rw [DialBack.keys, hstage]
  rw [onClient, houtbound]
  exact ⟨h.fresh, h.known, h.apart, h.split, hserves, hunlined⟩

theorem Kept.lt_of_mem_keys (h : x.Kept) (hd : x.client.attempt? p = some d) (hkey : key ∈ d.keys) :
    key < x.nextOutbound := by
  cases hl : x.lines p with
  | none =>
    rw [h.unlined p d hd hl] at hkey
    cases hkey
  | some l =>
    obtain ⟨d₀, hd₀, hkeeps⟩ := h.serves p l hl
    obtain rfl : d₀ = d := Option.some.inj (hd₀.symm.trans hd)
    exact h.known p l hl key (hkeeps.mem_keys hkey)

theorem kept_client (h : x.Kept) {e : LoopEvent} (he : x.clientAdmits e = true) (now : Nat) :
    (x.onClient (x.client.step a now e)).1.Kept := by
  unfold clientAdmits at he
  cases hdial : x.client.dial? e with
  | none => exact h.begins (x.client.step_of_other a now hdial)
  | some pde =>
    obtain ⟨p, de⟩ := pde
    have hinner : de.isInner = true := by
      rw [hdial] at he
      exact he
    rcases x.client.step_of_dial a now hdial with ⟨d, hd, hsteps⟩ | ⟨-, hrests⟩
    · have hout : Client.outgoing (x.client.step a now e).2 = Client.brought (d.step now de).2 :=
        funext hsteps.brings
      have hsilent : ∀ k, k ∉ d.keys →
          sending x.outbound (Client.outgoing (x.client.step a now e).2) k = x.outbound k := by
        intro k hk
        apply Traffic.sending_of_silent
        rw [hout]
        exact DialBack.brought_of_not_mem hinner hk
      refine h.turn (z := (x.onClient (x.client.step a now e)).1) hsteps.attempt (fun _ _ => rfl)
        (Nat.le_refl _) (fun k hk => ?_) (fun q m k hq hm hk => ?_) (fun hnone => ?_) fun l hl => ?_
      · have hnot : k ∉ d.keys := fun hmem => Nat.not_lt.mpr hk (h.lt_of_mem_keys hd hmem)
        exact (hsilent k hnot).trans (h.fresh k hk)
      · exact hsilent k (h.not_mem_keys hd hq hm hk)
      · exact DialBack.keys_of_inner hinner (h.unlined p d hd hnone) now
      · obtain ⟨d₀, hd₀, hkeeps⟩ := h.serves p l hl
        obtain rfl : d₀ = d := Option.some.inj (hd₀.symm.trans hd)
        refine ⟨?_, h.split p l hl, fun k hk => ⟨h.known p l hl k hk, .inr ⟨l, hl, hk⟩⟩⟩
        rw [onClient, hout, DialBack.session_step]
        exact hkeeps.step hinner
    · exact h.begins hrests.begins

/-! ## What comes from outside -/

/-- What is told to an attempt happens to it. -/
theorem steps_of_tell (hd : x.client.attempt? p = some d) (now : Nat) (de : DialEvent) :
    x.client.Steps p d now de (x.client.step a now (x.client.event p de)) := by
  have hdial := x.client.dial?_event p de (by rw [hd]; rfl)
  rcases x.client.step_of_dial a now hdial with ⟨d', hd', hsteps⟩ | ⟨hnone, -⟩
  · obtain rfl : d' = d := Option.some.inj (hd'.symm.trans hd)
    exact hsteps
  · cases hnone.symm.trans hd

theorem kept_arriveAt (h : x.Kept) (hl : x.lines p = some l) (hkey : l.Has key) (now : Nat) (b : Arrival) :
    (x.arriveAt a now p key b).1.Kept := by
  obtain ⟨d, hd, hkeeps⟩ := h.serves p l hl
  have hsteps := steps_of_tell (a := a) hd now (.receive key b)
  have houtbound : (x.arriveAt a now p key b).1.outbound = arriving x.outbound key b := by
    funext k
    exact Traffic.sending_of_silent (hsteps.brings k)
  refine h.turn (z := (x.arriveAt a now p key b).1) hsteps.attempt (fun _ _ => rfl) (Nat.le_refl _)
    (fun k hk => ?_) (fun q m k hq hm hk => ?_) (fun hnone => ?_) fun l' hl' => ?_
  · rw [houtbound, Traffic.arriving_of_ne, h.fresh k hk]
    rintro rfl
    exact Nat.not_lt.mpr hk (h.known p l hl k hkey)
  · rw [houtbound, Traffic.arriving_of_ne]
    rintro rfl
    exact hq (h.apart q p m l k hm hl hk hkey)
  · cases hnone.symm.trans hl
  · obtain rfl : l' = l := Option.some.inj (hl'.symm.trans hl)
    refine ⟨?_, h.split p l' hl, fun k hk => ⟨h.known p l' hl k hk, .inr ⟨l', hl, hk⟩⟩⟩
    rw [houtbound, DialBack.session_step]
    exact hkeeps.receive hkey b

/-- An attempt that still dials its data proxy has no line. -/
theorem Kept.dialsData (h : x.Kept) (hdials : x.dialsData p = true) :
    x.lines p = none ∧ ∃ d deadline, x.client.attempt? p = some d ∧ d.stage = .dialingData deadline := by
  rw [Tunnel.dialsData] at hdials
  cases hd : x.client.attempt? p with
  | none =>
    rw [hd] at hdials
    cases hdials
  | some d =>
    rw [hd, Option.any_some] at hdials
    split at hdials
    · rename_i deadline hstage
      refine ⟨?_, d, deadline, rfl, hstage⟩
      cases hl : x.lines p with
      | none => rfl
      | some l =>
        obtain ⟨d₀, hd₀, hkeeps⟩ := h.serves p l hl
        obtain rfl : d₀ = d := Option.some.inj (hd₀.symm.trans hd)
        rw [hstage] at hkeeps
        exact absurd hkeeps Client.not_keeps_of_dialing
    · cases hdials

/-- An attempt that dials its backend has a line, and no backend yet. -/
theorem Kept.dialsLocal (h : x.Kept) (hl : x.lines p = some l) (hdials : x.dialsLocal p = true) :
    l.backend = none ∧ ∃ d data deadline, x.client.attempt? p = some d ∧
      d.stage = .dialingLocal data deadline ∧ Keeps d.session x.outbound l.near none d.stage := by
  obtain ⟨d, hd, hkeeps⟩ := h.serves p l hl
  rw [Tunnel.dialsLocal, hd, Option.any_some] at hdials
  split at hdials
  · rename_i data deadline hstage
    have hnone : l.backend = none := by
      rw [hstage] at hkeeps
      exact hkeeps.backend_of_local
    exact ⟨hnone, d, data, deadline, hd, hstage, hnone ▸ hkeeps⟩
  · cases hdials

/-- A connection of an attempt is accepted under a new number, and is on its line from then
on. -/
theorem Kept.accepted (h : x.Kept) (hd : x.client.attempt? p = some d) (now : Nat)
    (hkeeps : Keeps d.session (sending x.outbound (Client.brought (d.step now (.accepted x.nextOutbound)).2))
      l.near l.backend (d.step now (.accepted x.nextOutbound)).1.stage)
    (hsplit : l.backend ≠ some l.near)
    (hhas : ∀ k, l.Has k → k = x.nextOutbound ∨ ∃ l₀, x.lines p = some l₀ ∧ l₀.Has k) :
    (({ x with nextOutbound := x.nextOutbound + 1 }.setLine p l).tell a now p
      (.accepted x.nextOutbound)).1.Kept := by
  let y := { x with nextOutbound := x.nextOutbound + 1 }.setLine p l
  have hsteps : y.client.Steps p d now (.accepted x.nextOutbound) _ := steps_of_tell (a := a) hd now _
  have houtbound : (y.tell a now p (.accepted x.nextOutbound)).1.outbound =
      sending x.outbound (Client.brought (d.step now (.accepted x.nextOutbound)).2) :=
    congrArg (sending x.outbound) (funext hsteps.brings)
  have hsilent : ∀ k, k ≠ x.nextOutbound →
      (y.tell a now p (.accepted x.nextOutbound)).1.outbound k = x.outbound k := by
    intro k hk
    rw [houtbound, Traffic.sending_of_silent (DialBack.brought_accepted d now hk)]
  have hself : (y.tell a now p (.accepted x.nextOutbound)).1.lines p = some l := by
    show Function.update x.lines p (some l) p = some l
    rw [Function.update_self]
  refine h.turn (z := (y.tell a now p (.accepted x.nextOutbound)).1) hsteps.attempt
    (fun q hq => Function.update_of_ne hq _ _) (Nat.le_succ _) (fun k hk => ?_)
    (fun q m k hq hm hk => ?_) (fun hnone => ?_) fun l' hl' => ?_
  · have hk : x.nextOutbound < k := hk
    rw [hsilent k (by omega), h.fresh k (by omega)]
  · have hlt := h.known q m hm k hk
    exact hsilent k (by omega)
  · cases hself.symm.trans hnone
  · obtain rfl : l = l' := Option.some.inj (hself.symm.trans hl')
    refine ⟨?_, hsplit, fun k hk => ?_⟩
    · rw [houtbound, DialBack.session_step]
      exact hkeeps
    · show k < x.nextOutbound + 1 ∧ _
      rcases hhas k hk with rfl | ⟨l₀, hl₀, hk₀⟩
      · exact ⟨Nat.lt_succ_self _, .inl (Nat.le_refl _)⟩
      · exact ⟨Nat.lt_succ_of_lt (h.known p l₀ hl₀ k hk₀), .inr ⟨l₀, hl₀, hk₀⟩⟩

theorem kept_call (h : x.Kept) (hdials : x.dialsData p = true) (now : Nat) :
    (({ x with nextOutbound := x.nextOutbound + 1 }.setLine p { near := x.nextOutbound }).tell
      a now p (.accepted x.nextOutbound)).1.Kept := by
  obtain ⟨-, d, deadline, hd, hstage⟩ := h.dialsData hdials
  have hkeeps : Keeps d.session (sending x.outbound (Client.brought (d.step now (.accepted x.nextOutbound)).2))
      x.nextOutbound none (d.step now (.accepted x.nextOutbound)).1.stage :=
    Client.keeps_accepted_data hstage (h.fresh x.nextOutbound (Nat.le_refl _))
  refine h.accepted (l := { near := x.nextOutbound }) hd now hkeeps nofun fun k hk => ?_
  exact .inl (hk.elim id nofun)

theorem kept_answer (h : x.Kept) (hl : x.lines p = some l) (hdials : x.dialsLocal p = true) (now : Nat) :
    (({ x with nextOutbound := x.nextOutbound + 1 }.setLine p
      { l with backend := some x.nextOutbound }).tell a now p (.accepted x.nextOutbound)).1.Kept := by
  obtain ⟨hnone, d, data, deadline, hd, hstage, hkeeps⟩ := h.dialsLocal hl hdials
  have hnear : l.near ≠ x.nextOutbound := Nat.ne_of_lt (h.known p l hl _ (.inl rfl))
  refine h.accepted (l := { l with backend := some x.nextOutbound }) hd now
    (hkeeps.accepted_local hstage (h.fresh _ (Nat.le_refl _)) hnear) ?_ fun k hk => ?_
  · exact fun hsame => hnear (Option.some.inj hsame).symm
  · rcases hk with hk | hk
    · exact .inr ⟨l, hl, .inl hk⟩
    · exact .inl (Option.some.inj hk).symm

/-! ## Step by step -/

theorem kept_start (so : Server.Options) (first : UInt32) (co : Client.Options) :
    (start so first co).Kept where
  fresh _ _ := rfl
  known := nofun
  apart := nofun
  split := nofun
  serves := nofun
  unlined p d hd := by
    have hnone : (start so first co).client.attempt? p = none := rfl
    cases hnone.symm.trans hd

/-- Whatever happens, the lines are kept. -/
theorem kept_step (h : x.Kept) (e : Event) : (x.step a e).1.Kept := by
  -- what the server does is nothing to the client
  have hserver : ∀ y, (x.onServer y).1.Kept := fun y => h.congr rfl rfl rfl rfl
  cases e with
  | server e =>
    rw [step]
    split
    · exact hserver _
    · exact h
  | client now e =>
    rw [step]
    split
    · rename_i he
      exact kept_client h he now
    · exact h
  | visit owner =>
    rw [step]
    split
    · exact h.congr rfl rfl rfl rfl
    · exact h
  | visitor key b =>
    rw [step]
    split
    · exact h.congr rfl rfl rfl rfl
    · exact h
  | call now p =>
    rw [step]
    split
    · rename_i hdials
      exact kept_call h hdials now
    · exact h
  | letIn p owner =>
    rw [step]
    split
    · exact h
    · rename_i l hl
      split
      · have hcame : (x.comeIn a owner).1.Kept := h.congr rfl rfl rfl rfl
        exact hcame.letIn hl x.nextInbound
      · exact h
  | up p y =>
    rw [step]
    split
    · exact h
    · split
      · exact h
      · exact h.congr rfl rfl rfl rfl
  | down now p y =>
    rw [step]
    split
    · exact h
    · rename_i l hl
      exact kept_arriveAt h hl (.inl rfl) now _
  | answer now p =>
    rw [step]
    split
    · exact h
    · rename_i l hl
      split
      · rename_i hdials
        exact kept_answer h hl hdials now
      · exact h
  | backend now p b =>
    rw [step]
    split
    · exact h
    · rename_i key hkey
      obtain ⟨l, hl, hbackend⟩ := Option.bind_eq_some_iff.mp hkey
      exact kept_arriveAt h hl (.inr hbackend) now b

end Tunnel

end ReverseTunnel

import Mathlib.Data.List.Infix
import ReverseTunnel.Client.DialBack
import ReverseTunnel.Proofs.Proxy.Conveyance
import ReverseTunnel.Proofs.Session.Handshake

/-!
An attempt to dial back carries a session.

To its data connection an attempt sends the handshake of its session first, and it takes
the handshake back before it dials its backend; from then on what came behind the echo goes
to the backend, and what the backend sends goes behind the handshake. What the two
connections have carried at any moment says this (`Carries`), and an attempt holds at every
stage what it takes to go on so (`Keeps`), whatever happens to it (`Keeps.step`) and
whatever comes in (`Keeps.receive`).
-/

namespace ReverseTunnel

/-- A connection of which so many more bytes were read. -/
def Party.readOn (p : Party) (n : Nat) : Party :=
  { p with socket := { p.socket with unread := p.socket.unread.drop n } }

namespace Client

open Session (Handshake.encode Handshake.length Handshake.length_encode)
open Traffic (sending arriving)

/-! ## What goes out -/

/-- What an effect of an attempt brings to a connection. -/
def DialEffect.brings (key : Nat) : DialEffect → Bytes
  | .relay e => e.brings key
  | .dial _ => []
  | .drop _ => []
  | .report _ => []

/-- What an attempt brings to a connection. -/
def brought (es : List DialEffect) (key : Nat) : Bytes := es.flatMap (·.brings key)

theorem brought_relay (es : List RelayEffect) (key : Nat) :
    brought (es.map .relay) key = es.flatMap (·.brings key) := by
  rw [brought, List.flatMap_map]
  rfl

/-- An event that happens to an attempt by itself: no connection of its own is opened, and
nothing comes in. -/
def DialEvent.isInner : DialEvent → Bool
  | .accepted _ => false
  | .receive _ _ => false
  | _ => true

namespace DialBack

variable {d : DialBack} {now key : Nat} {e : DialEvent}

/-- The connections of an attempt. -/
def keys (d : DialBack) : List Nat :=
  match d.stage with
  | .awaitingEcho data _ _ => [data.key]
  | .dialingLocal data _ => [data.key]
  | .relaying r => [r.front.key, r.back.key]
  | .dialingData _ => []
  | .ended => []

theorem brought_fail (d : DialBack) (data : List Party) (key : Nat) :
    brought (d.fail data).2 key = [] := by
  refine List.flatMap_eq_nil_iff.mpr fun x hx => ?_
  rcases List.mem_append.mp hx with hx | hx
  · obtain ⟨p, -, rfl⟩ := List.mem_map.mp hx
    rfl
  · rw [List.mem_singleton.mp hx]
    rfl

/-- What an attempt does by itself: it goes on as it is, it fails, it takes the echo for
read and dials its backend, or its relay takes a step. -/
inductive Move (d : DialBack) : DialBack × List DialEffect → Prop
  | stay : Move d (d, [])
  | fail (data : List Party) : Move d (d.fail data)
  /-- Not all of the echo is there. -/
  | await {data : Party} {got : Bytes} {deadline : Nat} (hstage : d.stage = .awaitingEcho data got deadline)
      (room : Nat) :
      Move d ({ d with
        stage := .awaitingEcho (data.readOn room) (got ++ data.socket.unread.take room) deadline }, [])
  | echoed {data : Party} {got : Bytes} {deadline : Nat}
      (hstage : d.stage = .awaitingEcho data got deadline) (room : Nat)
      (hecho : got ++ data.socket.unread.take room = Handshake.encode d.session) (till : Nat) :
      Move d ({ d with stage := .dialingLocal (data.readOn room) till }, [.dial d.localAddr])
  | relays {r r' : Relay} {es : List RelayEffect} (hstage : d.stage = .relaying r) (e : RelayEvent)
      (hstep : r.step e = .goesOn r' es) :
      Move d ({ d with stage := .relaying r' }, es.map .relay)
  /-- The relay has ended. -/
  | ends {r : Relay} (hstage : d.stage = .relaying r) :
      Move d ({ d with stage := .ended }, [.drop r.front.key, .drop r.back.key])

theorem move_look (d : DialBack) (now : Nat) : Move d (d.look now) := by
  unfold look
  split
  · rename_i data got deadline hstage
    dsimp only
    split
    · exact .fail _
    · split
      · split
        · rename_i hecho
          exact .echoed hstage _ hecho _
        · exact .fail _
      · split
        · exact .fail _
        · exact .await hstage _
  · exact .stay

theorem move_clock (d : DialBack) (now : Nat) : Move d (d.clock now) := by
  unfold clock
  split
  all_goals first
    | exact .stay
    | split
      · exact .fail _
      · exact .stay

theorem move_step (d : DialBack) (now : Nat) (he : e.isInner = true) : Move d (d.step now e) := by
  cases e with
  | accepted _ | receive _ _ => cases he
  | refused =>
    rw [step, refused]
    split
    · exact .fail _
    · exact .fail _
    · exact .stay
  | look => exact move_look d now
  | clock => exact move_clock d now
  | relay y =>
    rw [step, relay]
    split
    · rename_i r hstage
      split
      · rename_i r' es hstep
        exact .relays hstage y hstep
      · exact .ends hstage
    · exact .stay

theorem step_eq (d : DialBack) (now : Nat) (e : DialEvent) :
    (d.step now e).1 = { d with stage := (d.step now e).1.stage } := by
  by_cases he : e.isInner = true
  · have hm := move_step d now he
    generalize d.step now e = x at hm
    cases hm <;> rfl
  · cases e with
    | accepted k =>
      rw [step, accepted]
      split <;> rfl
    | receive k a =>
      show d.receive k a = { d with stage := (d.receive k a).stage }
      unfold receive
      split <;> rfl
    | _ => exact absurd rfl he

theorem session_step (d : DialBack) (now : Nat) (e : DialEvent) :
    (d.step now e).1.session = d.session := by rw [step_eq]

theorem dataAddr_step (d : DialBack) (now : Nat) (e : DialEvent) :
    (d.step now e).1.dataAddr = d.dataAddr := by rw [step_eq]

/-- An attempt brings something to its own connections only. -/
theorem brought_of_not_mem (he : e.isInner = true) (hkey : key ∉ d.keys) :
    brought (d.step now e).2 key = [] := by
  have hm := move_step d now he
  generalize d.step now e = x at hm
  cases hm with
  | stay | await => rfl
  | fail data => exact brought_fail d data key
  | echoed | ends => rfl
  | relays hstage y hstep =>
    rw [keys, hstage] at hkey
    rw [brought_relay]
    refine List.flatMap_eq_nil_iff.mpr fun re hre => RelayEffect.brings_of_ne ?_
    obtain ⟨side, hside⟩ := Proxy.reached_of_goesOn hstep hre
    rintro rfl
    apply hkey
    rw [hside]
    cases side <;> simp [Relay.party]

theorem keys_of_inner (he : e.isInner = true) (hkeys : d.keys = []) (now : Nat) :
    (d.step now e).1.keys = [] := by
  have hm := d.move_step now he
  generalize d.step now e = x at hm
  rw [keys] at hkeys
  cases hm with
  | stay => exact hkeys
  | fail _ | ends _ => rfl
  | await hstage _ | echoed hstage _ _ _ | relays hstage _ _ =>
    rw [hstage] at hkeys
    cases hkeys

theorem brought_accepted (d : DialBack) (now : Nat) {k : Nat} (hk : k ≠ key) :
    brought (d.step now (.accepted key)).2 k = [] := by
  rw [step, accepted]
  split
  · simp [brought, DialEffect.brings, RelayEffect.brings, hk.symm]
  · rfl
  · rfl

end DialBack

/-! ## What an attempt carries -/

/-- What the connections of an attempt have carried: the data connection the handshake
first, and the backend, if one was opened, only what came behind the echo, while what the
backend has sent went behind the handshake. -/
structure Carries (session : UInt32) (t : Nat → Traffic) (data : Nat) (backend : Option Nat) :
    Prop where
  begins : Handshake.encode session <+: (t data).went
  alone : backend = none → (t data).went = Handshake.encode session
  echoed : ∀ b, backend = some b → Handshake.encode session <+: (t data).came.sent
  inward : ∀ b, backend = some b → (t b).went <+: (t data).came.sent.drop Handshake.length
  outward : ∀ b, backend = some b → (t data).went <+: Handshake.encode session ++ (t b).came.sent

/-- What an attempt has at a stage, of what its connections have carried. -/
inductive Keeps (session : UInt32) (t : Nat → Traffic) (near : Nat) : Option Nat → DialStage → Prop
  | awaitsEcho {data : Party} {got : Bytes} (deadline : Nat) (hdata : data.key = near)
      (hheld : Held (t near).came got data.socket) (hwent : (t near).went = Handshake.encode session) :
      Keeps session t near none (.awaitingEcho data got deadline)
  | dialsLocal {data : Party} (deadline : Nat) (hdata : data.key = near)
      (hheld : Held (t near).came (Handshake.encode session) data.socket)
      (hwent : (t near).went = Handshake.encode session) :
      Keeps session t near none (.dialingLocal data deadline)
  | relays {r : Relay} (hfront : r.front.key = near) (hapart : r.front.key ≠ r.back.key)
      (hopen : r.opening = [])
      (hin : ∃ told taken, Lane r .front ⟨[], Handshake.encode session, 0⟩ (t r.front.key).came
        (t r.back.key).went told taken)
      (hout : ∃ told taken, Lane r .back ⟨Handshake.encode session, [], 0⟩ (t r.back.key).came
        (t r.front.key).went told taken) :
      Keeps session t near (some r.back.key) (.relaying r)
  | ended {backend : Option Nat} (h : Carries session t near backend) :
      Keeps session t near backend .ended

variable {session : UInt32} {t t' : Nat → Traffic} {near key : Nat} {backend : Option Nat}
  {stage : DialStage} {d : DialBack} {e : DialEvent} {now : Nat}

theorem not_keeps_of_dialing {deadline : Nat} : ¬Keeps session t near backend (.dialingData deadline) := nofun

theorem Keeps.backend_of_local {data : Party} {deadline : Nat}
    (h : Keeps session t near backend (.dialingLocal data deadline)) : backend = none := by
  cases h
  rfl

/-- Before a backend is opened, only the handshake has gone out. -/
theorem carries_of_none (h : (t near).went = Handshake.encode session) :
    Carries session t near none where
  begins := h ▸ List.prefix_refl _
  alone _ := h
  echoed := nofun
  inward := nofun
  outward := nofun

/-- A relay without an opening has led in with the handshake already. -/
theorem carries_of_lanes {r : Relay} (hopen : r.opening = [])
    (hin : ∃ told taken, Lane r .front ⟨[], Handshake.encode session, 0⟩ (t r.front.key).came
      (t r.back.key).went told taken)
    (hout : ∃ told taken, Lane r .back ⟨Handshake.encode session, [], 0⟩ (t r.back.key).came
      (t r.front.key).went told taken) :
    Carries session t r.front.key (some r.back.key) := by
  obtain ⟨_, taken, hin⟩ := hin
  obtain ⟨_, taken', hout⟩ := hout
  have hinward := hin.conveys.within
  have houtward := hout.conveys.within
  have hbegins := hout.conveyed
  simp only [hopen, pending, List.flatMap_nil, List.append_nil] at hbegins
  refine ⟨⟨taken', hbegins.symm⟩, ?_, ?_, ?_, ?_⟩
  · intro h
    cases h
  · rintro b ⟨⟩
    have hwithin := hin.held.within
    rw [List.append_assoc] at hwithin
    exact (List.prefix_append _ _).trans hwithin
  · rintro b ⟨⟩
    simpa using hinward
  · rintro b ⟨⟩
    simpa using houtward

theorem Keeps.carries (h : Keeps session t near backend stage) : Carries session t near backend := by
  cases h with
  | awaitsEcho _ _ _ hwent => exact carries_of_none hwent
  | dialsLocal _ _ _ hwent => exact carries_of_none hwent
  | relays hfront _ hopen hin hout => exact hfront ▸ carries_of_lanes hopen hin hout
  | ended h => exact h

theorem Keeps.mem_keys (h : Keeps session t near backend d.stage) (hkey : key ∈ d.keys) :
    key = near ∨ backend = some key := by
  rw [DialBack.keys] at hkey
  generalize d.stage = stage at h hkey
  cases h with
  | awaitsEcho _ hdata _ _ | dialsLocal _ hdata _ _ =>
    exact .inl ((List.mem_singleton.mp hkey).trans hdata)
  | relays hfront _ _ _ _ =>
    rcases List.mem_cons.mp hkey with rfl | hkey
    · exact .inl hfront
    · exact .inr (congrArg some (List.mem_singleton.mp hkey).symm)
  | ended _ => cases hkey

theorem Carries.congr (h : Carries session t near backend)
    (same : ∀ k, k = near ∨ backend = some k → t' k = t k) : Carries session t' near backend := by
  have hnear := same near (.inl rfl)
  refine ⟨hnear ▸ h.begins, fun hb => hnear ▸ h.alone hb, fun b hb => hnear ▸ h.echoed b hb,
    fun b hb => ?_, fun b hb => ?_⟩
  · rw [hnear, same b (.inr hb)]
    exact h.inward b hb
  · rw [hnear, same b (.inr hb)]
    exact h.outward b hb

theorem Keeps.congr (h : Keeps session t near backend stage)
    (same : ∀ k, k = near ∨ backend = some k → t' k = t k) : Keeps session t' near backend stage := by
  have hnear := same near (.inl rfl)
  cases h with
  | awaitsEcho deadline hdata hheld hwent =>
    exact .awaitsEcho deadline hdata (hnear ▸ hheld) (hnear ▸ hwent)
  | dialsLocal deadline hdata hheld hwent =>
    exact .dialsLocal deadline hdata (hnear ▸ hheld) (hnear ▸ hwent)
  | relays hfront hapart hopen hin hout =>
    rename_i r
    have hback := same r.back.key (.inr rfl)
    rw [← hfront] at hnear
    refine .relays hfront hapart hopen ?_ ?_
    · rw [hnear, hback]
      exact hin
    · rw [hnear, hback]
      exact hout
  | ended h => exact .ended (h.congr same)

/-! ## What an attempt keeps -/

/-- More that comes in does not take back what was carried. -/
theorem Carries.receive (h : Carries session t near backend) (key : Nat) (a : Arrival) :
    Carries session (arriving t key a) near backend := by
  have hwent := Traffic.went_arriving t key a
  have hsent := Traffic.sent_arriving t key a
  refine ⟨(hwent near).symm ▸ h.begins, fun hb => (hwent near).trans (h.alone hb),
    fun b hb => (h.echoed b hb).trans (hsent near), fun b hb => ?_, fun b hb => ?_⟩
  · rw [hwent]
    exact (h.inward b hb).trans ((hsent near).drop _)
  · rw [hwent]
    exact (h.outward b hb).trans ((List.prefix_append_right_inj _).mpr (hsent b))

theorem Keeps.receive (h : Keeps session t near backend d.stage)
    (hkey : key = near ∨ backend = some key) (a : Arrival) :
    Keeps session (arriving t key a) near backend (d.receive key a).stage := by
  obtain ⟨own, dataAddr, localAddr, timeout, stage⟩ := d
  have hheard : ∀ {data : Party} {got : Bytes}, data.key = near → key = near →
      Held (t near).came got data.socket →
      Held (arriving t key a near).came got (data.receive key a).socket := by
    rintro data got hdata rfl hheld
    rw [Traffic.came_arriving, if_pos rfl, Party.socket_receive, if_pos hdata.symm]
    exact hheld.receive a
  cases h with
  | awaitsEcho deadline hdata hheld hwent =>
    have hnear : key = near := hkey.elim id nofun
    exact .awaitsEcho deadline ((Party.key_receive _ _ _).trans hdata) (hheard hdata hnear hheld)
      ((Traffic.went_arriving _ _ _ _).trans hwent)
  | dialsLocal deadline hdata hheld hwent =>
    have hnear : key = near := hkey.elim id nofun
    exact .dialsLocal deadline ((Party.key_receive _ _ _).trans hdata) (hheard hdata hnear hheld)
      ((Traffic.went_arriving _ _ _ _).trans hwent)
  | relays hfront hapart hopen hin hout =>
    rename_i r
    have hf : (r.receive key a).front.key = r.front.key := Party.key_receive _ _ _
    have hb : (r.receive key a).back.key = r.back.key := Party.key_receive _ _ _
    have hlane : ∀ (source : Side) {account : Account} {out : Bytes},
        (∃ told taken, Lane r source account (t (r.party source).key).came out told taken) →
        ∃ told taken, Lane (r.receive key a) source account
          (arriving t key a (r.party source).key).came out told taken := by
      rintro source account out ⟨told, taken, hlane⟩
      refine ⟨told, taken, ?_⟩
      rw [Traffic.came_arriving]
      simp only [eq_comm (a := (r.party source).key)]
      exact hlane.receive key a
    show Keeps _ _ _ _ (.relaying (r.receive key a))
    rw [← hb]
    refine .relays (hf.trans hfront) (by rw [hf, hb]; exact hapart) hopen ?_ ?_
    · rw [hf, hb, Traffic.went_arriving]
      exact hlane .front hin
    · rw [hf, hb, Traffic.went_arriving]
      exact hlane .back hout
  | ended h => exact .ended (h.receive key a)

theorem keeps_of_silent {es : List DialEffect} (hsilent : ∀ k, brought es k = [])
    (h : Keeps session t near backend stage) : Keeps session (sending t (brought es)) near backend stage :=
  h.congr fun k _ => Traffic.sending_of_silent (hsilent k)

/-- Whatever an attempt does by itself, it keeps what its connections have carried. -/
theorem Keeps.step (h : Keeps d.session t near backend d.stage) (he : e.isInner = true) :
    Keeps d.session (sending t (brought (d.step now e).2)) near backend (d.step now e).1.stage := by
  have hm := d.move_step now he
  generalize d.step now e = x at hm
  cases hm with
  | stay => exact keeps_of_silent (fun _ => rfl) h
  | fail data => exact keeps_of_silent (DialBack.brought_fail d data) (.ended h.carries)
  | await hstage room =>
    refine keeps_of_silent (fun _ => rfl) ?_
    rw [hstage] at h
    cases h with
    | awaitsEcho deadline hdata hheld hwent => exact .awaitsEcho _ hdata (hheld.take room) hwent
  | echoed hstage room hecho till =>
    refine keeps_of_silent (fun _ => rfl) ?_
    rw [hstage] at h
    cases h with
    | awaitsEcho deadline hdata hheld hwent =>
      exact .dialsLocal till hdata (hecho ▸ hheld.take room) hwent
  | ends hstage => exact keeps_of_silent (fun _ => rfl) (.ended h.carries)
  | relays hstage y hstep =>
    rename_i r r' es
    rw [hstage] at h
    cases h with
    | relays hfront hapart hopen hin hout =>
      have hf : r'.front.key = r.front.key := Relay.key_of_goesOn hstep .front
      have hb : r'.back.key = r.back.key := Relay.key_of_goesOn hstep .back
      have hlane : ∀ (source : Side) {account : Account},
          (r.party source).key ≠ (r.party source.other).key →
          (∃ told taken, Lane r source account (t (r.party source).key).came
            (t (r.party source.other).key).went told taken) →
          ∃ told taken, Lane r' source account (sending t (brought (es.map .relay)) (r.party source).key).came
            (sending t (brought (es.map .relay)) (r.party source.other).key).went told taken := by
        rintro source account hne ⟨told, taken, hlane⟩
        obtain ⟨taken', hlane'⟩ := hlane.step hne hstep
        rw [← brought_relay] at hlane'
        exact ⟨_, taken', hlane'⟩
      rw [← hb]
      refine .relays (hf.trans hfront) (by rw [hf, hb]; exact hapart)
        (Relay.opening_of_goesOn hstep hopen) ?_ ?_
      · rw [hf, hb]
        exact hlane .front hapart hin
      · rw [hf, hb]
        exact hlane .back hapart.symm hout

/-! ## What is accepted -/

theorem keeps_accepted_data {deadline : Nat} (hstage : d.stage = .dialingData deadline)
    (hfresh : t key = {}) :
    Keeps d.session (sending t (brought (d.step now (.accepted key)).2)) key none
      (d.step now (.accepted key)).1.stage := by
  simp only [DialBack.step, DialBack.accepted, hstage]
  have hwent : (sending t (brought [.relay (.deliver key (Handshake.encode d.session))]) key).went =
      Handshake.encode d.session := by
    simp [sending, brought, DialEffect.brings, RelayEffect.brings, hfresh]
  refine .awaitsEcho _ rfl ?_ hwent
  rw [show (sending t _ key).came = {} by rw [sending, hfresh]]
  exact .start

/-- A backend that has accepted is relayed with the data connection, of which the echo was
read. -/
theorem Keeps.accepted_local {data : Party} {deadline : Nat}
    (h : Keeps d.session t near none d.stage) (hstage : d.stage = .dialingLocal data deadline)
    (hfresh : t key = {}) (hne : near ≠ key) :
    Keeps d.session (sending t (brought (d.step now (.accepted key)).2)) near (some key)
      (d.step now (.accepted key)).1.stage := by
  simp only [DialBack.step, DialBack.accepted, hstage]
  rw [hstage] at h
  cases h with
  | dialsLocal _ hdata hheld hwent =>
    refine keeps_of_silent (fun _ => rfl) ?_
    refine .relays (r := { front := data, back := ⟨key, {}⟩ }) hdata (hdata ▸ hne) rfl ?_ ?_
    · refine ⟨False, [], ?_, ?_, rfl, ⟨nofun, nofun⟩, nofun⟩
      · rw [hdata, List.append_nil]
        exact hheld
      · show (t key).went ++ [] = []
        rw [hfresh]
        rfl
    · refine ⟨False, [], ?_, ?_, rfl, ⟨nofun, nofun⟩, nofun⟩
      · show Held (t key).came [] {}
        rw [hfresh]
        exact .start
      · show (t data.key).went ++ [] = _
        rw [hdata, List.append_nil, List.append_nil]
        exact hwent

end Client

end ReverseTunnel

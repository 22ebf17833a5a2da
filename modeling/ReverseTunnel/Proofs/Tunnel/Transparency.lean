import ReverseTunnel.Proofs.Proxy.PairingSafety
import ReverseTunnel.Proofs.Server.NameContest
import ReverseTunnel.Proofs.Tunnel.FarEnd

/-!
The tunnel is transparent.

What is proved (`tunnels_transparently`): a connection that the client has opened to its backend
carries the one user with which the proxy has paired the line of its attempt, and what has gone
out at either end is a prefix of what has come in at the other. The backend is opened only behind
the echo of the handshake, which goes out to a line only when it is paired (`pairs_of_opened`).
From end to end the bytes pass three stretches, each of which brings a prefix of what was put on
it: the relay of the proxy, the line, and the relay of the client. The handshakes that the first
and the last put in front of them are taken off where they arrive, and are as long as what is
taken off (`toBackend`, `toUser`).

What is assumed: the handshake of a line reaches its proxy before the time to judge it is up, or
nothing more does (`InTime`). A line that is late is taken for a user, who sends a handshake.

What is not said: that everything arrives. Of the relay of a proxy this is known if both sides end
in order (`Proofs.Proxy.Transparency`).
-/

namespace ReverseTunnel.Tunnel.Run

open Client (Attempt)
open Proxy (Exchange)
open Server.Run (webCipher webOptions comesAndAsks bindsAll)
open Session (ConnId Handshake.encode Handshake.length Handshake.length_encode)

variable {a : Seal.Aead} {so : Server.Options} {first : UInt32} {co : Client.Options}
  {r : Run a so first co} {q : Exchange.Run (delays so) first} {p : Attempt} {l : Line} {c : ConnId}
  {session : UInt32} {user backend far k m n : Nat}

/-! ## Who is carried -/

/-- The client has opened a connection to its backend. -/
def Opened (r : Run a so first co) (backend : Nat) : Prop :=
  ∃ n p l, (r.state n).lines p = some l ∧ l.backend = some backend

/-- A connection that came in was taken for a user. -/
def TakenForUser (r : Run a so first co) (key : Nat) : Prop :=
  ∃ n c session, ((r.state n).server.table c).Waits key session

/-- A connection to the backend carries one that came in: the attempt that has opened it has the
data connection with which a proxy has paired this. -/
def Carries (r : Run a so first co) (backend user : Nat) : Prop :=
  ∃ p l far m n c session, (r.state m).lines p = some l ∧ l.backend = some backend ∧
    l.far = some far ∧ ((r.state n).server.table c).Pairs session user far

/-- Something went out to the line of an attempt before its backend was opened, so that the line
was paired, with somebody who was taken for a user. -/
theorem pairs_of_opened (hintime : r.InTime) (hq : Follows q r) (hl : (r.state n).lines p = some l)
    (hb : l.backend = some backend) :
    ∃ far k c session user, l.far = some far ∧ (q.table c k).Pairs session user far ∧
      r.TakenForUser user := by
  obtain ⟨d, -, hkeeps⟩ := (r.kept n).serves p l hl
  have hechoed := (hkeeps.carries.echoed backend hb).trans ((r.conducts n).down p l hl)
  have hput : (r.state n).put l ≠ [] := by
    intro hnone
    rw [hnone, List.prefix_nil] at hechoed
    cases hechoed
  cases hfar : l.far with
  | none => exact absurd (by rw [put, hfar]) hput
  | some far =>
    have hreceived : q.received far n ≠ [] := by
      rw [hq.went]
      rwa [put, hfar] at hput
    obtain ⟨k, -, c, session, user, data, hpairs, hkey⟩ := Exchange.Run.pairs_of_received hreceived
    obtain ⟨w, -, hwaits⟩ := Exchange.Run.waits_of_pairs hpairs
    rw [table_eq hq] at hwaits
    rcases hkey with rfl | rfl
    · exact absurd hwaits (not_waits_of_line hintime hl hfar w c session)
    · exact ⟨far, k, c, session, user, rfl, hpairs, w, c, session, hwaits⟩

/-! ## From end to end -/

section

variable (hq : Follows q r) (hl : (r.state m).lines p = some l) (hb : l.backend = some backend)
  (hfar : l.far = some far) (hpairs : (q.table c k).Pairs session user far)
include hq hl hb hfar hpairs

theorem toBackend (n : Nat) :
    ((r.state n).outbound backend).went <+: ((r.state n).inbound user).came.sent := by
  rcases later_at (e := .backend) hl hb n with ⟨l₁, hl₁, hb₁⟩ | ⟨-, hnew⟩
  · obtain ⟨d, -, hkeeps⟩ := (r.kept n).serves p l₁ hl₁
    have hclient := hkeeps.carries.inward backend hb₁
    have hline := (r.conducts n).down p l₁ hl₁
    have hproxy := (Exchange.Run.transparent hpairs n).1.within
    rw [hq.went, hq.came, List.drop_zero] at hproxy
    have hput : (r.state n).put l₁ <+: ((r.state n).inbound far).went := by
      rcases later_at (e := .far) hl hfar n with ⟨l₂, hl₂, hfar₂⟩ | ⟨hnone, -⟩
      · obtain rfl := Option.some.inj (hl₁.symm.trans hl₂)
        rw [put, show l₁.far = some far from hfar₂]
      · rw [put, show l₁.far = none from hnone l₁ hl₁]
        exact List.nil_prefix
    have hall := hclient.trans ((hline.trans (hput.trans hproxy)).drop Handshake.length)
    rwa [← Handshake.length_encode session, List.drop_left] at hall
  · rw [(r.kept n).fresh backend hnew]
    exact List.nil_prefix

theorem toUser (n : Nat) :
    ((r.state n).inbound user).went <+: ((r.state n).outbound backend).came.sent := by
  have hproxy := (Exchange.Run.transparent hpairs n).2.within
  rw [hq.went, hq.came, List.nil_append] at hproxy
  rcases later_at (e := .far) hl hfar n with ⟨l₁, hl₁, hfar₁⟩ | ⟨-, hnew⟩
  · obtain ⟨d, -, hkeeps⟩ := (r.kept n).serves p l₁ hl₁
    have hline := (r.conducts n).up p l₁ far hl₁ hfar₁
    rcases later_at (e := .backend) hl hb n with ⟨l₂, hl₂, hb₂⟩ | ⟨hnone, -⟩
    · obtain rfl := Option.some.inj (hl₁.symm.trans hl₂)
      have hclient := hkeeps.carries.outward backend hb₂
      have hall := hproxy.trans ((hline.trans hclient).drop Handshake.length)
      rwa [← Handshake.length_encode d.session, List.drop_left] at hall
    · -- only the handshake was put on the line yet
      rw [hkeeps.carries.alone (hnone l₁ hl₁)] at hline
      have hall := hproxy.trans (hline.drop Handshake.length)
      rw [← Handshake.length_encode d.session, List.drop_length, List.prefix_nil] at hall
      rw [hall]
      exact List.nil_prefix
  · -- the line was not let in yet
    rw [(r.conducts n).fresh far hnew] at hproxy
    rw [List.prefix_nil.mp hproxy]
    exact List.nil_prefix

end

/-! ## Transparency -/

/-- The tunnel is transparent from end to end, whatever users, lines and backend do and in
whatever order, if the handshakes come in time: each connection that the client opens to its
backend carries one connection that was taken for a user, none of the client's, and no other
carries this one; and at every moment the bytes that the backend has received on it are a
prefix of those that the user has sent, and the bytes that the user has received a prefix of
those that the backend has sent on it. -/
theorem tunnels_transparently (r : Run a so first co) (hintime : r.InTime) (backend : Nat)
    (hopened : r.Opened backend) :
    ∃ user, r.TakenForUser user ∧ (∀ n p l, (r.state n).lines p = some l → l.far ≠ some user) ∧
      (∀ other, r.Carries backend other ↔ other = user) ∧
      (∀ other, r.Carries other user → other = backend) ∧
      ∀ n, ((r.state n).outbound backend).went <+: ((r.state n).inbound user).came.sent ∧
        ((r.state n).inbound user).went <+: ((r.state n).outbound backend).came.sent := by
  obtain ⟨m, p, l, hl, hb⟩ := hopened
  obtain ⟨q, hq⟩ := r.exists_follows
  obtain ⟨far, k, c, session, user, hfar, hpairs, htaken⟩ := pairs_of_opened hintime hq hl hb
  refine ⟨user, htaken, ?_, fun other => ⟨?_, ?_⟩, ?_,
    fun n => ⟨toBackend hq hl hb hfar hpairs n, toUser hq hl hb hfar hpairs n⟩⟩
  · intro n p' l' hl' hfar'
    obtain ⟨w, c', s, hwaits⟩ := htaken
    exact not_waits_of_line hintime hl' hfar' w c' s hwaits
  · rintro ⟨p', l', far', m', k', c', s, hl', hb', hfar', hpairs'⟩
    obtain rfl := near_unique hl hl' (.inr hb) (.inr hb')
    obtain rfl := later_unique (e := .far) hl' hl hfar' hfar
    rw [← table_eq hq] at hpairs'
    exact (Exchange.Run.pair_unique hpairs' hpairs (.inr rfl)).2.2.1
  · rintro rfl
    rw [table_eq hq] at hpairs
    exact ⟨p, l, far, m, k, c, session, hl, hb, hfar, hpairs⟩
  · rintro other ⟨p', l', far', m', k', c', s, hl', hb', hfar', hpairs'⟩
    rw [← table_eq hq] at hpairs'
    obtain ⟨-, -, -, rfl⟩ := Exchange.Run.pair_unique hpairs' hpairs (.inl rfl)
    obtain rfl := far_unique hl' hl hfar' hfar
    exact later_unique (e := .backend) hl' hl hb' hb

/-! ## An answer comes through -/

/-- As long as the time of nobody who is judged is up, the handshakes are in time. -/
theorem inTime_of_early (h : ∀ n, ∀ pr ∈ (r.state n).server.proxies, ∀ j ∈ pr.table.judging,
    (r.state n).server.now < j.deadline) : r.InTime := by
  intro n p l far c _ _ j hj _ hdue
  cases hc : (r.state n).server.proxy? c with
  | none =>
    rw [Server.Run.table_of_none hc] at hj
    cases hj
  | some pr =>
    rw [Server.Run.table_of_proxy? hc] at hj
    have hearly := h n pr (Server.Run.mem_of_proxy? hc).1 j hj
    exact absurd hdue (Nat.not_le.mpr hearly)

/-- A client that asks for the name web. -/
def webClient : Client.Options where
  serverAddr := "h:1"
  authToken := ""
  minReconnectDelay := 1000
  maxReconnectDelay := 8000
  heartbeatDelay := 1000
  dialTimeout := 1000
  proxy := some ⟨"web", "l:2", none, 0, "s", "", "h"⟩

def firstAttempt : Attempt := ⟨0, 0⟩

/-- The name web is granted, a user comes in and sends two bytes, and is announced to the
client. -/
def userComes : List Event :=
  (comesAndAsks 1 ++ [Server.Event.handle ⟨1⟩ bindsAll]).map .server ++
    [.visit ⟨1⟩, .visitor 1 (.bytes [71, 69]), .server (.table ⟨1⟩ (.look 1)),
      .client 0 .go, .client 0 (.dialed true),
      .client 0 (.serving (.link (.receive (Wire.bytesOf [.authAck true "",
        .openDataPortAck true "" 0 7, .openDataConn 1])))),
      .client 0 (.serving (.link .read)), .client 0 (.serving (.link .read)),
      .client 0 (.serving (.link .read)), .client 0 (.serving (.handle [])),
      .client 0 (.serving (.handle [])), .client 0 (.serving (.handle []))]

/-- The client dials back and takes the two bytes to its backend, whose answer of one byte
reaches the user. -/
def answerGoes : List Event :=
  [.call 0 firstAttempt, .letIn firstAttempt ⟨1⟩, .up firstAttempt (.bytes 8), .server (.table ⟨1⟩ (.look 2)),
    .server (.table ⟨1⟩ (.relay 2 (.write 8))), .server (.table ⟨1⟩ (.relay 2 (.write 2))),
    .server (.table ⟨1⟩ (.relay 2 (.write 1))), .down 0 firstAttempt (.bytes 10),
    .client 0 (.serving (.dial 0 .look)), .answer 0 firstAttempt,
    .client 0 (.serving (.dial 0 (.relay (.copy .front 2)))),
    .backend 0 firstAttempt (.bytes [72]),
    .client 0 (.serving (.dial 0 (.relay (.copy .back 1)))), .up firstAttempt (.bytes 1),
    .server (.table ⟨1⟩ (.relay 2 (.copy .back 1)))]

/-- What is tried for ever in the end is not possible, for nobody comes in but as a user or on a
line. -/
def answersOnce : Run webCipher webOptions 1 webClient :=
  .of (userComes ++ answerGoes) (.server (.table ⟨1⟩ (.accept 0)))

theorem inTime_answersOnce : answersOnce.InTime := by
  apply inTime_of_early
  intro n
  have hearly : ∀ n ≤ 33, ∀ pr ∈ (answersOnce.state n).server.proxies, ∀ j ∈ pr.table.judging,
      (answersOnce.state n).server.now < j.deadline := by decide +kernel
  rcases Nat.le_total n 33 with hn | hn
  · exact hearly n hn
  · rw [(Course.still_of_le (c := answersOnce) rfl (fun _ => rfl) hn).1]
    exact hearly 33 (Nat.le_refl _)

theorem tunnels_transparently_answersOnce :
    answersOnce.InTime ∧ answersOnce.Opened 2 ∧ answersOnce.TakenForUser 1 ∧
      (∀ other, answersOnce.Carries 2 other → other = 1) ∧
      ((answersOnce.state 33).outbound 2).went = [71, 69] ∧
      [71, 69] <+: ((answersOnce.state 33).inbound 1).came.sent ∧
      ((answersOnce.state 33).inbound 1).went = [72] ∧
      [72] <+: ((answersOnce.state 33).outbound 2).came.sent := by
  have hline : (answersOnce.state 33).lines firstAttempt = some ⟨1, some 2, some 2⟩ := by decide +kernel
  have hopened : answersOnce.Opened 2 := ⟨33, firstAttempt, _, hline, rfl⟩
  have hpairs : ((answersOnce.state 33).server.table ⟨1⟩).Pairs 1 1 2 := by
    show ∃ p ∈ _, _
    decide +kernel
  have hbackend : ((answersOnce.state 33).outbound 2).went = [71, 69] := by decide +kernel
  have huser : ((answersOnce.state 33).inbound 1).went = [72] := by decide +kernel
  obtain ⟨user, htaken, -, hcarries, -, hbytes⟩ :=
    tunnels_transparently answersOnce inTime_answersOnce 2 hopened
  obtain rfl : 1 = user := (hcarries 1).mp ⟨firstAttempt, _, _, 33, 33, ⟨1⟩, 1, hline, rfl, rfl, hpairs⟩
  obtain ⟨hin, hout⟩ := hbytes 33
  exact ⟨inTime_answersOnce, hopened, htaken, fun other => (hcarries other).mp, hbackend,
    hbackend ▸ hin, huser, huser ▸ hout⟩

end ReverseTunnel.Tunnel.Run

import ReverseTunnel.Proofs.Client.Connections
import ReverseTunnel.Proofs.Client.Heartbeats
import ReverseTunnel.Proofs.Client.Lifecycle
import ReverseTunnel.Proofs.Server.Announcing
import ReverseTunnel.Proofs.Server.NameContest
import ReverseTunnel.Proofs.Server.Serving

/-!
One heartbeat at a time.

A client and a server are joined by a transport that delivers to either end what the other has
put on it, in order and at any time (`Joined`). As long as an end is not closed, all that was
accepted there was handled at the other end or is on the way to it (`accepted_eq`).

What is proved (`one_heartbeat_at_a_time`):
1. A server approves a client once, for the client presents its token once, and it answers each
   heartbeat; and a client answers each approval and each answer with one heartbeat later. So
   from the moment on at which the approval is queued, and until one end is closed, exactly one
   of these is on its way or due.
2. Every heartbeat answers a call of its own, and goes off no sooner than the delay in force then.

What is assumed: that it goes off at that very time takes timers that are not late
(`Client.Serving.Punctual`). All else is said of every pair of courses that are joined.

What is not said: how long an answer is on its way, and so how often heartbeats come.
-/

namespace ReverseTunnel

open Client (Loop isBeat approves callsForBeat)
open Control
open Server (Conversation Answer Run record authVerdict)
open Session (ConnId IdSource)
open Wire (Message Frame messagesIn)

/-! ## On the way -/

/-- The messages that were accepted at one end of a connection and not yet handled at the other,
with the bytes that are under way in between: those that wait to be handled, those that were
written in part or as a whole, and those that wait to be written. -/
def between (sender receiver : Link) (way : Bytes) : List Message :=
  receiver.inbox ++ messagesIn (receiver.unread ++ way ++ sender.sending) ++ sender.outbox

section

variable {sender receiver : Link} {begun accepted handled : List Message} {sent heard way : Bytes}

/-- As long as the writer of an end goes on, what was accepted there was handled at the other end
or is on the way. -/
theorem accepted_eq (hw : sender.Writes begun accepted sent) (hgoing : sender.writerStopped = false)
    (hr : receiver.Reads heard handled) (hway : heard ++ way = sent) :
    accepted = handled ++ between sender receiver way := by
  obtain ⟨hwritten, hall⟩ := hw.going hgoing
  have hbegun : begun =
      handled ++ receiver.inbox ++ messagesIn (receiver.unread ++ (way ++ sender.sending)) := by
    have hcarries := (Wire.Carries.append hr (way ++ sender.sending)).messagesIn_eq
    rwa [← List.append_assoc, hway, hwritten, Wire.messagesIn_bytesOf hw.fits] at hcarries
  rw [← hall, hbegun, between, List.append_assoc receiver.unread]
  simp only [List.append_assoc]

end

/-! ## What is answered -/

/-- An answer to a heartbeat. -/
def isBeatAck : Message → Bool
  | .heartbeatAck _ _ => true
  | _ => false

/-- A token is presented. -/
def presents : Message → Bool
  | .auth _ => true
  | _ => false

/-- A token is presented that is accepted. -/
def presentsGood (o : Server.Options) : Message → Bool
  | .auth token => o.admits token
  | _ => false

theorem countP_callsForBeat (ms : List Message) :
    ms.countP callsForBeat = ms.countP approves + ms.countP isBeatAck := by
  induction ms with
  | nil => rfl
  | cons m ms ih =>
    have hone : (if callsForBeat m then 1 else 0) =
        (if approves m then 1 else 0) + if isBeatAck m then 1 else 0 := by
      cases m with
      | authAck success message => cases success <;> rfl
      | _ => rfl
    rw [List.countP_cons, List.countP_cons, List.countP_cons, ih, hone]
    omega

/-- On a connection that goes on, each heartbeat is answered, and each token that is accepted
with an approval. -/
theorem countP_conversation {o : Server.Options} {ms replies : List Message} {goesOn : Bool}
    (h : Conversation o ms replies goesOn) : goesOn = true →
    replies.countP isBeatAck = ms.countP isBeat ∧
      replies.countP approves = ms.countP (presentsGood o) := by
  induction h with
  | nil => exact fun _ => ⟨rfl, rfl⟩
  | @snoc ms replies reply m goesOn _ ha ih =>
    intro hgoes
    obtain ⟨hbeats, happroves⟩ := ih rfl
    have hone : reply.countP isBeatAck = (if isBeat m then 1 else 0) ∧
        reply.countP approves = if presentsGood o m then 1 else 0 := by
      cases ha with
      | accepts token hadmits => exact ⟨rfl, by rw [presentsGood, hadmits]; rfl⟩
      | rejects token hadmits => exact ⟨rfl, by rw [presentsGood, hadmits]; rfl⟩
      | echoes => exact ⟨rfl, rfl⟩
      | dropsStray => cases hgoes
      | grants => exact ⟨rfl, rfl⟩
      | refuses => cases hgoes
      | passesOver _ hauth hbeat =>
        cases m with
        | auth => exact absurd rfl hauth
        | heartbeat => exact absurd rfl hbeat
        | _ => exact ⟨rfl, rfl⟩
    rw [List.countP_append, List.countP_append, List.countP_append, List.countP_append, hbeats,
      happroves, List.countP_singleton, List.countP_singleton, hone.1, hone.2]
    exact ⟨rfl, rfl⟩

theorem countP_withoutAnnouncements {p : Message → Bool}
    (hp : ∀ session, p (.openDataConn session) = false) (ms : List Message) :
    (Server.withoutAnnouncements ms).countP p = ms.countP p := by
  rw [Server.withoutAnnouncements, List.countP_filter]
  apply List.countP_congr
  intro m _
  cases m with
  | openDataConn session => simp [hp]
  | _ => simp [Message.kind]

section Server

variable {a : Seal.Aead} {so : Server.Options} {ids : IdSource}
  (server : Course (Run.step a) (Run.start so ids)) {c : ConnId} {n : Nat} {l : Link}

theorem countP_accepted (hl : (server.state n).link? c = some l) (hopen : l.closed = false) :
    ∃ begun accepted, l.Writes begun accepted (record server c n).sent ∧
      accepted.countP isBeatAck = (record server c n).handled.countP isBeat ∧
      accepted.countP approves =
        (record server c n).handled.countP (presentsGood so.normalize) := by
  obtain ⟨begun, accepted, ms, goesOn, hw, ht⟩ := (Server.kept server c n).dialogue l hl
  obtain ⟨rfl, hgoes⟩ := ht.going hopen
  obtain ⟨hbeats, happroves⟩ := countP_conversation ht.answers hgoes
  rw [countP_withoutAnnouncements fun _ => rfl] at hbeats happroves
  exact ⟨begun, accepted, hw, hbeats, happroves⟩

theorem handled_grows {i j : Nat} (hij : i ≤ j) :
    (record server c i).handled <+: (record server c j).handled := by
  induction hij with
  | refl => exact List.prefix_rfl
  | step _ ih => exact ih.trans (List.prefix_append _ _)

theorem presentsGood_of_react {o : Server.Options} {bind : Server.Binder} {now : Nat}
    {reg : Server.Registry} {m : Message} {message : String}
    (h : .emit (.authAck true message) ∈ (Server.react o a bind now reg c m).2) :
    presentsGood o m = true := by
  cases m with
  | auth token =>
    simp only [Server.react, Server.onAuth] at h
    split at h
    · assumption
    · split at h <;> simp [authVerdict] at h
  | heartbeat timestamp =>
    simp only [Server.react, Server.onHeartbeat] at h
    split at h <;> simp at h
  | openDataPort sealedRequest =>
    simp only [Server.react, Server.onOpenDataPort] at h
    split at h
    · simp [Server.granted] at h
    · simp [Server.refused] at h
  | _ => simp [Server.react] at h

theorem not_approved_ofProxy {r : Run} {e : Server.Event} (he : e.ofProxy? = some c)
    (message : String) : .authAck true message ∉ r.queuedOn (r.step a e).1 c := by
  intro h
  rcases Run.proxy_cases a r he with ⟨user, buffered, -, hreg⟩ | ⟨-, hnone, -⟩
  · obtain ⟨p, p', -, -, -, ⟨-, hqueued, -⟩ | ⟨hnone, -⟩⟩ := hreg.outcome
    · rw [hqueued] at h
      cases List.mem_singleton.mp h
    · rw [hnone] at h
      cases h
  · rw [hnone] at h
    cases h

/-- An approval is queued when a token is handled that is accepted. -/
theorem presented_of_queued {j : Nat} {message : String}
    (h : .authAck true message ∈ (server.state j).queuedOn (server.state (j + 1)) c) :
    ∃ m ∈ (record server c (j + 1)).handled, presentsGood so.normalize m = true := by
  have ht := Run.turn a (server.state j) (server.happens j)
  change .authAck true message ∈ (server.state j).queuedOn ((server.state j).step a _).1 c at h
  by_cases hproxy : (server.happens j).ofProxy? = some c
  · exact absurd h (not_approved_ofProxy hproxy message)
  · by_cases habout : (server.happens j).about? = some c
    · cases he : server.happens j with
      | handle d bind =>
        rw [he] at ht h
        obtain ⟨rfl, l, m, l', hl, htake, hemits⟩ := Run.queuedOn_handle ht h
        refine ⟨m, List.mem_append_right _ ?_, ?_⟩
        · rw [he]
          simp [Run.handledOn, hl, htake]
        · rw [← Server.options_eq server j]
          exact presentsGood_of_react hemits
      | link d y =>
        rw [he] at ht h
        rw [Run.queuedOn_link ht] at h
        cases h
      | connect | advance =>
        rw [he] at habout
        cases habout
      | table | sweep | wind =>
        rw [he] at hproxy habout
        exact absurd habout hproxy
    · rw [Run.queuedOn_elsewhere ht habout] at h
      cases h

end Server

/-! ## The client on its connection -/

namespace Client.Serving

variable {a : Seal.Aead} {co : Client.Options} {now : Nat}
  (connection : Course (stepAt co a) (start co now).1)

theorem countP_presents (n : Nat) : (emittedBefore connection n).countP presents = 1 := by
  obtain ⟨later, hemitted, hlater⟩ := introduces_itself_once connection n
  have hnone : later.countP presents = 0 := by
    rw [List.countP_eq_zero]
    intro m hm
    cases m with
    | auth token => exact absurd hm (hlater token)
    | _ => exact Bool.false_ne_true
  rw [hemitted, List.countP_cons, hnone]
  rfl

end Client.Serving

/-! ## A client joined to a server -/

section Joined

variable {a : Seal.Aead} {so : Server.Options} {ids : IdSource} {co : Client.Options}

/-- A connection of a client that was made at a moment and a connection of a server are the two
ends of one: what has arrived at either end by a moment is a beginning of what was put on the
transport at the other. -/
structure Joined (server : Course (Run.step a) (Run.start so ids)) (c : ConnId)
    (client : Course (Loop.stepAt a) (Loop.start co)) (k m : Nat) : Prop where
  made : Loop.Made client k m
  up : ∀ i, (record server c (m + 1 + i)).heard <+:
    Client.sentBytes ((Loop.alone client k m).effects i)
  down : ∀ i, Client.Serving.heard (Loop.alone client k m) i <+: (record server c (m + 1 + i)).sent

variable (server : Course (Run.step a) (Run.start so ids)) (c : ConnId)
  (client : Course (Loop.stepAt a) (Loop.start co)) (k m : Nat)

/-- The messages on the way to the server, from a client whose connection was made at a moment. -/
def upward (l : Link) (i : Nat) : List Message :=
  between ((Loop.alone client k m).state i).link l
    ((Client.sentBytes ((Loop.alone client k m).effects i)).drop
      (record server c (m + 1 + i)).heard.length)

/-- The messages on the way to the client. -/
def downward (l : Link) (i : Nat) : List Message :=
  between l ((Loop.alone client k m).state i).link
    ((record server c (m + 1 + i)).sent.drop
      (Client.Serving.heard (Loop.alone client k m) i).length)

/-- The heartbeat in all of its forms: the approval and the answers to heartbeats that are on the
way to the client, the heartbeats that are due, and those that are on the way to the server. -/
def tokens (l : Link) (i : Nat) : Nat :=
  (downward server c client k m l i).countP approves +
    ((Loop.alone client k m).state i).beats.length +
    (upward server c client k m l i).countP isBeat +
    (downward server c client k m l i).countP isBeatAck

variable {server c client k m}

/-- As long as neither end is closed, there are as many heartbeats in all of their forms as tokens
were accepted, and no more than one was. -/
theorem Joined.tokens_eq (h : Joined server c client k m) {i : Nat} {l : Link}
    (hl : (server.state (m + 1 + i)).link? c = some l) (hopen : l.closed = false)
    (hopen' : ((Loop.alone client k m).state i).link.closed = false) :
    tokens server c client k m l i =
        (record server c (m + 1 + i)).handled.countP (presentsGood so.normalize) ∧
      (record server c (m + 1 + i)).handled.countP (presentsGood so.normalize) ≤ 1 := by
  have hserves := (Client.Serving.serves_before (Loop.alone client k m) i).2
  obtain ⟨hgoing', begun', hw'⟩ := hserves.writes_of_open hopen'
  obtain ⟨begun, accepted, hw, hbeats, happroves⟩ := countP_accepted server hl hopen
  have hgoing : l.writerStopped = false := by
    rw [Bool.eq_false_iff]
    intro hstopped
    cases hopen.symm.trans (Server.closed_of_stopped server c _ hl hstopped)
  have hup := accepted_eq hw' hgoing' ((Server.kept server c _).reads l hl)
    (List.prefix_iff_eq_append.mp (h.up i))
  have hdown := accepted_eq hw hgoing hserves.reads (List.prefix_iff_eq_append.mp (h.down i))
  have hbalance := Client.Serving.calls_balance (Loop.alone client k m) hopen'
  have hsplit := countP_callsForBeat (Client.Serving.handledBefore (Loop.alone client k m) i)
  have hpresents := Client.Serving.countP_presents (Loop.alone client k m) i
  have hgood : (record server c (m + 1 + i)).handled.countP (presentsGood so.normalize) ≤
      (record server c (m + 1 + i)).handled.countP presents := by
    apply List.countP_mono_left
    intro x _ hx
    cases x with
    | auth => rfl
    | _ => exact hx
  have hbeatsUp := congrArg (List.countP isBeat) hup
  have hpresentsUp := congrArg (List.countP presents) hup
  have hacksDown := congrArg (List.countP isBeatAck) hdown
  have happrovesDown := congrArg (List.countP approves) hdown
  rw [List.countP_append] at hbeatsUp hpresentsUp hacksDown happrovesDown
  unfold tokens upward downward
  omega

/-- On a connection between a client and a server, from the moment on at which the server has
queued its approval and until either end is closed, exactly one of these is there: that approval
on its way to the client, a heartbeat that is due, a heartbeat on its way to the server, or an
answer to one on its way to the client. And whatever a server does, each heartbeat that a client
sends was called for by another message that was handled on the same connection before, and is
sent when the delay that was in force at that moment has passed: not before, and at that time if
the heartbeats go off on time. -/
theorem one_heartbeat_at_a_time (server : Course (Run.step a) (Run.start so ids))
    (client : Course (Loop.stepAt a) (Loop.start co)) :
    (∀ c k m, Joined server c client k m → ∀ i l,
      (server.state (m + 1 + i)).link? c = some l → l.closed = false →
      ((Loop.alone client k m).state i).link.closed = false →
      (∃ j < m + 1 + i, ∃ message,
        .authAck true message ∈ (server.state j).queuedOn (server.state (j + 1)) c) →
      tokens server c client k m l i = 1) ∧
    ∀ k m, Loop.Made client k m → ∃ caller : Nat → Nat,
      (∀ n, Client.Serving.BeatsAt (Loop.alone client k m) n →
        caller n < n ∧ Client.Serving.CallsAt (Loop.alone client k m) (caller n) ∧
        Client.Serving.dueAfter (Loop.alone client k m) (caller n) ≤
          ((Loop.alone client k m).happens n).1 ∧
        (Client.Serving.Punctual (Loop.alone client k m) → ((Loop.alone client k m).happens n).1 =
          Client.Serving.dueAfter (Loop.alone client k m) (caller n))) ∧
      ∀ n n', Client.Serving.BeatsAt (Loop.alone client k m) n →
        Client.Serving.BeatsAt (Loop.alone client k m) n' → caller n = caller n' → n = n' := by
  refine ⟨fun c k m h i l hl hopen hopen' ⟨j, hj, message, hqueued⟩ => ?_, fun k m _ =>
    Client.Serving.heartbeats_are_called_for (Loop.alone client k m)⟩
  obtain ⟨heq, hle⟩ := h.tokens_eq hl hopen hopen'
  obtain ⟨x, hx, hgood⟩ := presented_of_queued server hqueued
  have hpos := List.countP_pos_iff.mpr ⟨x, (handled_grows server hj).subset hx, hgood⟩
  omega

/-! A client presents its token, is approved, and sends one heartbeat. -/

/-- A server that waits for the token of a client and approves it. -/
def approvesOne : Course (Run.step Seal.aes256Gcm)
    (Run.start { Run.webOptions with authToken := "token" } .fresh) :=
  .of [.advance 0, .connect none, .advance 0, .advance 0,
    .link ⟨1⟩ (.receive (Wire.bytesOf [.auth "token"])), .link ⟨1⟩ .read, .handle ⟨1⟩ Run.bindsAll,
    .link ⟨1⟩ .beginFrame, .link ⟨1⟩ (.transmit 100)] (.advance 0)

/-- A client that is approved and sends a heartbeat when it is due. -/
def beatsOnce : Course (Loop.stepAt Seal.aes256Gcm) (Loop.start Loop.plainOptions) :=
  .of [(0, .go), (0, .dialed true), (1, .serving (.link .beginFrame)),
    (1, .serving (.link (.transmit 100))), (2, .go), (2, .go), (2, .go), (2, .go), (2, .go),
    (3, .serving (.link (.receive (Wire.bytesOf [.authAck true ""])))), (3, .serving (.link .read)),
    (3, .serving (.handle [])), (13, .serving .beat)] (13, .go)

theorem made_beatsOnce : Loop.Made beatsOnce 0 1 := ⟨⟨by decide +kernel, rfl⟩, by decide +kernel⟩

theorem idle_beatsOnce (d : Nat) : (Loop.alone beatsOnce 0 1).happens (11 + d) = (13, Loop.idle) := by
  have hlast : beatsOnce.happens (1 + 1 + (11 + d)) = (13, .go) :=
    Course.happens_of_le rfl (by show 13 ≤ _; omega)
  simp only [Loop.alone, hlast, Loop.eventOn?, Option.getD_none]

theorem still_beatsOnce (d : Nat) :
    (Loop.alone beatsOnce 0 1).state (11 + d) = (Loop.alone beatsOnce 0 1).state 11 ∧
      (Loop.alone beatsOnce 0 1).effects (11 + d) = (Loop.alone beatsOnce 0 1).effects 11 ∧
      Client.Serving.heard (Loop.alone beatsOnce 0 1) (11 + d) =
        Client.Serving.heard (Loop.alone beatsOnce 0 1) 11 := by
  induction d with
  | zero => exact ⟨rfl, rfl, rfl⟩
  | succ d ih =>
    obtain ⟨hstate, heffects, hheard⟩ := ih
    have hidle := idle_beatsOnce d
    refine ⟨?_, ?_, ?_⟩
    · rw [← Nat.add_assoc, Course.state, hidle, Client.Serving.stepAt, Loop.step_idle, hstate]
    · rw [← Nat.add_assoc, Course.effects, Course.effectsAt, hidle, Client.Serving.stepAt,
        Loop.step_idle, heffects, List.append_nil]
    · rw [← Nat.add_assoc, Client.Serving.heard, hidle, hheard]
      exact List.append_nil _

theorem still_approvesOne (d : Nat) :
    record approvesOne ⟨1⟩ (13 + d) = record approvesOne ⟨1⟩ 13 := by
  induction d with
  | zero => rfl
  | succ d ih =>
    have hlast : approvesOne.happens (13 + d) = .advance 0 :=
      Course.happens_of_le rfl (by show 9 ≤ _; omega)
    rw [← Nat.add_assoc, record, ih, Course.effectsAt, hlast]
    simp [Server.Record.after, Run.heardOn, Run.handledOn, Run.step, Server.sentOn]

theorem joined_beatsOnce : Joined approvesOne ⟨1⟩ beatsOnce 0 1 := by
  have hfirst : ∀ i < 12, (record approvesOne ⟨1⟩ (1 + 1 + i)).heard <+:
        Client.sentBytes ((Loop.alone beatsOnce 0 1).effects i) ∧
      Client.Serving.heard (Loop.alone beatsOnce 0 1) i <+:
        (record approvesOne ⟨1⟩ (1 + 1 + i)).sent := by decide +kernel
  have hall : ∀ i, (record approvesOne ⟨1⟩ (1 + 1 + i)).heard <+:
        Client.sentBytes ((Loop.alone beatsOnce 0 1).effects i) ∧
      Client.Serving.heard (Loop.alone beatsOnce 0 1) i <+:
        (record approvesOne ⟨1⟩ (1 + 1 + i)).sent := by
    intro i
    rcases Nat.lt_or_ge i 12 with hi | hi
    · exact hfirst i hi
    · obtain ⟨d, rfl⟩ := Nat.exists_eq_add_of_le (Nat.le_of_succ_le hi)
      obtain ⟨-, heffects, hheard⟩ := still_beatsOnce d
      have hrecord : record approvesOne ⟨1⟩ (1 + 1 + (11 + d)) =
          record approvesOne ⟨1⟩ (1 + 1 + 11) := by
        rw [← Nat.add_assoc]
        exact still_approvesOne d
      rw [hrecord, heffects, hheard]
      exact hfirst 11 (by decide)
  exact ⟨made_beatsOnce, fun i => (hall i).1, fun i => (hall i).2⟩

theorem punctual_beatsOnce : Client.Serving.Punctual (Loop.alone beatsOnce 0 1) := by
  intro n _
  have hfirst : ∀ i < 12, ∀ due ∈ ((Loop.alone beatsOnce 0 1).state i).beats,
      ((Loop.alone beatsOnce 0 1).happens i).1 ≤ due := by decide +kernel
  rcases Nat.lt_or_ge n 12 with hn | hn
  · exact hfirst n hn
  · obtain ⟨d, rfl⟩ := Nat.exists_eq_add_of_le (Nat.le_of_succ_le hn)
    have hnone : ((Loop.alone beatsOnce 0 1).state 11).beats = [] := by decide +kernel
    rw [(still_beatsOnce d).1, hnone]
    nofun

/-- The approval is on its way, then the heartbeat that it calls for is due, and then this is on
its way, at the time at which it was due. -/
theorem one_heartbeat_at_a_time_beatsOnce :
    (∀ i ∈ [6, 9, 10, 11], ∃ l, (approvesOne.state (1 + 1 + i)).link? ⟨1⟩ = some l ∧
      tokens approvesOne ⟨1⟩ beatsOnce 0 1 l i = 1) ∧
    ∃ n < 10, Client.Serving.CallsAt (Loop.alone beatsOnce 0 1) n ∧
      Client.Serving.dueAfter (Loop.alone beatsOnce 0 1) n = 13 := by
  obtain ⟨htokens, hcalled⟩ := one_heartbeat_at_a_time approvesOne beatsOnce
  refine ⟨fun i hi => ?_, ?_⟩
  · have hopen : ∀ i ∈ [6, 9, 10, 11],
        ((approvesOne.state (1 + 1 + i)).link? ⟨1⟩).map (·.closed) = some false ∧
          ((Loop.alone beatsOnce 0 1).state i).link.closed = false ∧ 6 < 1 + 1 + i := by
      decide +kernel
    obtain ⟨hl, hopen', hi⟩ := hopen i hi
    obtain ⟨l, hl, hclosed⟩ := Option.map_eq_some_iff.mp hl
    have hqueued : .authAck true "" ∈
        (approvesOne.state 6).queuedOn (approvesOne.state (6 + 1)) ⟨1⟩ := by decide +kernel
    exact ⟨l, hl, htokens ⟨1⟩ 0 1 joined_beatsOnce i l hl hclosed hopen'
      ⟨6, hi, "", hqueued⟩⟩
  · obtain ⟨caller, hcaller, -⟩ := hcalled 0 1 made_beatsOnce
    obtain ⟨hlt, hcalls, -, hdue⟩ := hcaller 10 ⟨13, by decide +kernel⟩
    refine ⟨caller 10, hlt, hcalls, ?_⟩
    rw [← hdue punctual_beatsOnce]
    decide +kernel

end Joined

end ReverseTunnel

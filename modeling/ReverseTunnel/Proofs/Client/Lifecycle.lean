import ReverseTunnel.Proofs.Client.Stopping
import ReverseTunnel.Seal.Gcm

/-!
The life of a client, from its start until it has stopped.

What is proved (`keeps_to_its_states`) brings together what is known of the states of a client
(`Standing`), of its connections (`Connections`), of what it knows and says on each of them
(`Knowledge`) and of its end (`Stopping`):
1. The states that are published are a path along the allowed changes, and a client is
   authenticated only on a connection on which an approval has arrived.
2. Each connection is at the moments of a course of its own. The token is the first message on it
   and is said once, and what the client knows there it was told there.
3. A client that has stopped was shut down, and stays disconnected.

What is assumed: for a client that is shut down to stop, that what it waits for comes
(`Unhindered`). All else is said of every course.

What is not said: how long the end takes.
-/

namespace ReverseTunnel.Client.Loop

open Control
open Wire (Message bytesOf messagesIn)

/-- What happens in turn to a client that is not hindered. -/
def turn (time : Nat) : Nat → Nat × LoopEvent
  | 0 => (time, .go)
  | 1 => (time, .dialed true)
  | 2 => (time, .serving (.link .shutDown))
  | 3 => (time, .serving (.handle []))
  | 4 => (time, .serving (.link (.beginFlush time)))
  | 5 => (time, .serving (.link (.giveUp time)))
  | _ => (time, .serving (.link .finish))

variable {o : Options} {a : Seal.Aead}

theorem unhindered_thenInTurn (events : List (Nat × LoopEvent)) :
    Unhindered (.thenInTurn events 7 turn : Course (stepAt a) (start o)) := by
  have hcomes (n i : Nat) (hi : i < 7) : ∃ k, n ≤ k ∧
      ((.thenInTurn events 7 turn : Course (stepAt a) (start o)).happens k).2 = (turn k i).2 := by
    obtain ⟨k, hk, he⟩ := Course.comes_in_turn rfl n hi
    exact ⟨k, hk, congrArg Prod.snd he⟩
  constructor
  · exact fun n => hcomes n 0 (by decide)
  · exact fun n => (hcomes n 1 (by decide)).imp fun _ h => h.imp_right fun he => ⟨true, he⟩
  · exact fun n _ => hcomes n 2 (by decide)
  · exact fun n => (hcomes n 3 (by decide)).imp fun _ h => h.imp_right fun he => ⟨[], he⟩
  · exact fun n => (hcomes n 4 (by decide)).imp fun k h => h.imp_right fun he => ⟨k, he⟩
  · intro n time
    obtain ⟨k, hk, he⟩ := hcomes (n + time) 5 (by decide)
    exact ⟨k, by omega, k, by omega, he⟩
  · exact fun n => hcomes n 6 (by decide)

/-- The states that a client publishes follow each other. Every connection that it has was made
at some moment, and is where a course of its own is that starts there: on it the client says its
token first and never again, which is also the order on the transport; it knows what it was told
on this connection and nothing else, and its heartbeats and its attempts to dial back use no
other cadence or port. It is authenticated only while a connection is served on which its
approval arrived. And a client that has stopped was shut down, and is disconnected for good; if
it is shut down and not hindered, it stops. -/
theorem keeps_to_its_states (course : Course (stepAt a) (start o)) :
    (∀ n, Path .disconnected (statesOf (course.effects n)) (course.state n).state) ∧
    (∀ n k s, (course.state n).servings[k]? = some s →
      ∃ m i, n = m + 1 + i ∧ Made course k m ∧ (alone course k m).state i = s) ∧
    (∀ k m, Made course k m → ∀ i,
      (∃ later, Serving.emittedBefore (alone course k m) i = .auth o.authToken :: later ∧
        ∀ token, .auth token ∉ later) ∧
      sentBytes ((alone course k m).effects i) <+: bytesOf
        ((Serving.emittedBefore (alone course k m) i).takeWhile fun m => Wire.Frame.Fits m.body) ∧
      ((alone course k m).state i).session = known o (Serving.handledBefore (alone course k m) i) ∧
      Serving.Uses o (Serving.handledBefore (alone course k m) i) ((alone course k m).state i)) ∧
    (∀ n, (course.state n).state = .authenticated → ∃ m i message, n = m + 1 + i ∧
      Made course (course.state n).past.length m ∧
      (course.state n).phase = .serving ((alone course (course.state n).past.length m).state i) ∧
      .authAck true message ∈
        messagesIn (Serving.heard (alone course (course.state n).past.length m) i)) ∧
    (∀ n, (course.state n).phase = .stopped → (course.state n).shutDown = true ∧
      ∀ k, n ≤ k → (course.state k).state = .disconnected ∧
        statesOf (course.effects k) = statesOf (course.effects n)) ∧
    (Unhindered course → ∀ n, (course.state n).shutDown = true →
      ∃ k, n ≤ k ∧ (course.state k).phase = .stopped) := by
  refine ⟨path_of_states course, fun n k s hs => ?_, fun k m _ i => ?_, fun n hauthenticated => ?_,
    fun n hstopped => ?_, fun hc n hshut => hc.stops hshut⟩
  · obtain ⟨m, i, rfl, hmade⟩ := made_of_servings hs
    exact ⟨m, i, rfl, hmade, Option.some.inj ((servings_alone hmade i).symm.trans hs)⟩
  · exact ⟨Serving.introduces_itself_once _ i, Serving.sends_in_order _ i,
      Serving.session_eq_known _ i, Serving.used_what_was_known _ i⟩
  · obtain ⟨m, i, message, hn, hmade, hserving, hhandled⟩ :=
      approved_of_authenticated course hauthenticated
    exact ⟨m, i, message, hn, hmade, hserving,
      (Serving.handles_in_order (alone course _ m) i).1.subset hhandled⟩
  · refine ⟨(heeds course n).stopped hstopped, fun k hk => ?_⟩
    obtain ⟨-, hdisconnected, hsilent⟩ := stopped_for_good hstopped hk
    exact ⟨hdisconnected, hsilent⟩

/-- A client without a proxy. -/
def plainOptions : Options where
  serverAddr := "tunnel:1"
  authToken := "token"
  minReconnectDelay := 1
  maxReconnectDelay := 2
  heartbeatDelay := 10
  dialTimeout := 5
  proxy := none

/-- A client is approved twice over on its first connection, loses it, makes another one and is
shut down. -/
def losesOneConnection : Course (stepAt Seal.aes256Gcm) (start plainOptions) :=
  .thenInTurn [(0, .go), (0, .dialed true),
    (1, .serving (.link (.receive (bytesOf [.authAck true "", .authAck true ""])))),
    (1, .serving (.link .read)), (1, .serving (.link .read)), (1, .serving (.handle [])),
    (1, .serving (.handle [])), (2, .serving (.link .failWriting)),
    (2, .serving (.link .noticeClose)), (2, .serving (.link (.beginFlush 2))),
    (2, .serving (.link .finish)), (9, .wake), (9, .go), (9, .dialed true), (9, .shutDown)] 7 turn

theorem keeps_to_its_states_losesOneConnection :
    (∃ m i message, 7 = m + 1 + i ∧ Made losesOneConnection 0 m ∧
      .authAck true message ∈ messagesIn (Serving.heard (alone losesOneConnection 0 m) i)) ∧
    statesOf (losesOneConnection.effects 15) = [.connecting, .connectedUnauth, .authenticated,
      .disconnected, .connecting, .connectedUnauth] ∧
    ∃ k, 15 ≤ k ∧ ∀ j, k ≤ j → (losesOneConnection.state j).state = .disconnected := by
  obtain ⟨-, -, -, happroved, hstopped, hstops⟩ := keeps_to_its_states losesOneConnection
  refine ⟨?_, by decide +kernel, ?_⟩
  · obtain ⟨m, i, message, hn, hmade, -, hheard⟩ := happroved 7 (by decide +kernel)
    have hfirst : (losesOneConnection.state 7).past.length = 0 := by decide +kernel
    rw [hfirst] at hmade hheard
    exact ⟨m, i, message, hn, hmade, hheard⟩
  · obtain ⟨k, hk, hphase⟩ := hstops (unhindered_thenInTurn _) 15 (by decide +kernel)
    exact ⟨k, hk, fun j hj => ((hstopped k hphase).2 j hj).1⟩

end ReverseTunnel.Client.Loop

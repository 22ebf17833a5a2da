import ReverseTunnel.Proofs.Client.DialBack
import ReverseTunnel.Proofs.Course

/-!
The life of an attempt to dial back.

Whatever happens to an attempt, in whatever order and at whatever times, all that it does is
one of a few things (`Goes`): it dials the data proxy once, writes the handshake of its
session there, dials the backend once, and reports once how it went; when it fails nothing but
the handshake was written anywhere and the data connection is dropped.

When it dials the backend and when it reports success is said by what happened to it alone,
without its state: the backend is dialed with the look at which the first eight bytes that
came in are the handshake (`Echoes`), and success is reported when the backend accepts after
that (`Serves`), each before a clock shows that the time for it is up. If no event comes after
its deadline, each comes within the dial timeout (`Serves.on_time`).
-/

namespace ReverseTunnel

theorem Socket.receive_nil (s : Socket) : s.receive (.bytes []) = s := by
  simp only [receive, List.append_nil]
  split <;> rfl

theorem Party.receive_nil (p : Party) (key : Nat) : p.receive key (.bytes []) = p := by
  simp only [receive, Socket.receive_nil]
  split <;> rfl

namespace Client

open Session (Handshake.encode Handshake.length Handshake.length_encode)

/-! ## What an attempt does -/

/-- The handshake of a session is written to a connection. -/
def hello (session : UInt32) (key : Nat) : DialEffect := .relay (.deliver key (Handshake.encode session))

/-- What an attempt does after its report of success: bytes are relayed and connections dropped. -/
def DialEffect.isService : DialEffect → Bool
  | .relay _ => true
  | .drop _ => true
  | .dial _ => false
  | .report _ => false

/-- All that an attempt does, with its report once there is one. -/
inductive Goes (session : UInt32) (dataAddr localAddr : String) :
    Option Bool → List DialEffect → Prop
  | dialing : Goes session dataAddr localAddr none [.dial dataAddr]
  | greeted (key : Nat) : Goes session dataAddr localAddr none [.dial dataAddr, hello session key]
  | echoed (key : Nat) : Goes session dataAddr localAddr none
      [.dial dataAddr, hello session key, .dial localAddr]
  | unreached : Goes session dataAddr localAddr (some false) [.dial dataAddr, .report false]
  | unpaired (key : Nat) : Goes session dataAddr localAddr (some false)
      [.dial dataAddr, hello session key, .drop key, .report false]
  | unserved (key : Nat) : Goes session dataAddr localAddr (some false)
      [.dial dataAddr, hello session key, .dial localAddr, .drop key, .report false]
  | serves (key : Nat) (es : List DialEffect) (h : ∀ e ∈ es, e.isService = true) :
      Goes session dataAddr localAddr (some true)
        ([.dial dataAddr, hello session key, .dial localAddr, .report true] ++ es)

/-- An attempt has ended or serves its user. -/
def DialStage.concluded : DialStage → Bool
  | .relaying _ => true
  | .ended => true
  | _ => false

/-- When the time is up for what an attempt waits for. -/
def DialStage.deadline? : DialStage → Option Nat
  | .dialingData deadline => some deadline
  | .awaitingEcho _ _ deadline => some deadline
  | .dialingLocal _ deadline => some deadline
  | _ => none

namespace DialBack

variable {d : DialBack} {e : Nat × DialEvent} {deadline : Nat} {session : UInt32}
  {dataAddr localAddr : String}

/-- Something happens to an attempt at a time. -/
def stepAt (d : DialBack) (e : Nat × DialEvent) : DialBack × List DialEffect := d.step e.1 e.2

/-- An event with which nothing happens to an attempt. -/
def idle : DialEvent := .receive 0 (.bytes [])

theorem step_idle (d : DialBack) (now : Nat) : d.step now idle = (d, []) := by
  obtain ⟨session, dataAddr, localAddr, timeout, stage⟩ := d
  cases stage <;> simp only [step, idle, receive, Relay.receive, Party.receive_nil]

/-! ## Stage by stage -/

/-- With an event a dial is not answered, and its time is not up. -/
structure Unanswered (deadline : Nat) (e : Nat × DialEvent) : Prop where
  accepted : ∀ key, e.2 ≠ .accepted key
  refused : e.2 ≠ .refused
  early : e.2 = .clock → e.1 < deadline

/-- What can happen to an attempt that dials the data proxy. -/
inductive DataTurn (d : DialBack) (deadline : Nat) (e : Nat × DialEvent) :
    DialBack × List DialEffect → Prop
  | waits (h : Unanswered deadline e) : DataTurn d deadline e (d, [])
  | greets (key : Nat) (h : e.2 = .accepted key) : DataTurn d deadline e
      ({ d with stage := .awaitingEcho ⟨key, {}⟩ [] (e.1 + d.timeout) }, [hello d.session key])
  | fails (hno : ∀ key, e.2 ≠ .accepted key) (h : ¬Unanswered deadline e) :
      DataTurn d deadline e ({ d with stage := .ended }, [.report false])

theorem data_turn (h : d.stage = .dialingData deadline) (e : Nat × DialEvent) :
    d.DataTurn deadline e (d.stepAt e) := by
  obtain ⟨now, y⟩ := e
  have hwaits (hstep : d.step now y = (d, [])) (hu : Unanswered deadline (now, y)) :
      d.DataTurn deadline (now, y) (d.stepAt (now, y)) := by
    rw [stepAt, hstep]
    exact .waits hu
  have hfails (hstep : d.step now y = d.fail []) (hno : ∀ key, y ≠ .accepted key)
      (hu : ¬Unanswered deadline (now, y)) :
      d.DataTurn deadline (now, y) (d.stepAt (now, y)) := by
    rw [stepAt, hstep]
    exact .fails hno hu
  cases y with
  | accepted key =>
    have hstep : d.stepAt (now, .accepted key) =
        ({ d with stage := .awaitingEcho ⟨key, {}⟩ [] (now + d.timeout) }, [hello d.session key]) := by
      simp only [stepAt, step, accepted, h]
      rfl
    rw [hstep]
    exact .greets key rfl
  | refused => exact hfails (by simp only [step, refused, h]) (by simp) fun hu => hu.refused rfl
  | clock =>
    by_cases hdue : deadline ≤ now
    · exact hfails (by simp only [step, clock, h, if_pos hdue]) (by simp)
        fun hu => Nat.not_lt.mpr hdue (hu.early rfl)
    · exact hwaits (by simp only [step, clock, h, if_neg hdue])
        ⟨by simp, by simp, fun _ => Nat.lt_of_not_le hdue⟩
  | receive key x => exact hwaits (by simp only [step, receive, h]) ⟨by simp, by simp, by simp⟩
  | look => exact hwaits (by simp only [step, look, h]) ⟨by simp, by simp, by simp⟩
  | relay y => exact hwaits (by simp only [step, relay, h]) ⟨by simp, by simp, by simp⟩

/-- What has come in from a connection, of which nothing is taken, after another event. -/
def hear (key : Nat) (s : Socket) : DialEvent → Socket
  | .receive k x => if k = key then s.receive x else s
  | _ => s

/-- The far end may still send what is missing of the handshake. -/
structure Short (s : Socket) : Prop where
  whole : s.broken = false
  goesOn : s.remoteEnded = false
  missing : s.unread.length < Handshake.length

/-- With an event the echo stays awaited: if it is looked for, more of it may come, and its time
is not up. -/
structure Unechoed (deadline : Nat) (s : Socket) (e : Nat × DialEvent) : Prop where
  short : e.2 = .look → Short s
  early : e.2 = .clock → e.1 < deadline

/-- With an event the echo is looked for, and it is there. -/
structure Echoed (session : UInt32) (s : Socket) (e : Nat × DialEvent) : Prop where
  look : e.2 = .look
  whole : s.broken = false
  echo : s.unread.take Handshake.length = Handshake.encode session

theorem Echoed.not_unechoed {s : Socket} (h : Echoed session s e) : ¬Unechoed deadline s e := by
  intro hu
  have hmissing := (hu.short h.look).missing
  have hlength := congrArg List.length h.echo
  rw [List.length_take, Handshake.length_encode] at hlength
  omega

/-- What was read of what came in, and what is left of it. -/
structure Reads (came : Socket) (got : Bytes) (s : Socket) : Prop where
  broken : s.broken = came.broken
  ended : s.remoteEnded = came.remoteEnded
  all : came.broken = false → came.unread = got ++ s.unread
  missing : got.length < Handshake.length

theorem Reads.receive {came s : Socket} {got : Bytes} (h : Reads came got s) (x : Arrival) :
    Reads (came.receive x) got (s.receive x) := by
  cases x with
  | bytes bs =>
    have hended := h.ended
    cases hcame : came.remoteEnded with
    | true =>
      rw [hcame] at hended
      simpa only [Socket.receive, hended, hcame, if_true] using h
    | false =>
      rw [hcame] at hended
      simp only [Socket.receive, hended, hcame, Bool.false_eq_true, if_false]
      exact ⟨h.broken, rfl, fun hwhole => by rw [h.all hwhole, List.append_assoc], h.missing⟩
  | ended => exact ⟨h.broken, rfl, h.all, h.missing⟩
  | gone => exact ⟨h.broken, rfl, h.all, h.missing⟩
  | reset => exact ⟨rfl, rfl, fun hwhole => (by cases hwhole), h.missing⟩

theorem Reads.seen {came s : Socket} {got : Bytes} (h : Reads came got s) (hwhole : came.broken = false) :
    got ++ s.unread.take (Handshake.length - got.length) = came.unread.take Handshake.length := by
  rw [h.all hwhole, List.take_append, List.take_of_length_le (Nat.le_of_lt h.missing)]

/-- What can happen to an attempt that awaits the echo, of which so much has come in. -/
inductive EchoTurn (d : DialBack) (data : Party) (deadline : Nat) (came : Socket)
    (e : Nat × DialEvent) : DialBack × List DialEffect → Prop
  | waits (h : Unechoed deadline came e) (data' : Party) (got' : Bytes) (hkey : data'.key = data.key)
      (hreads : Reads (hear data.key came e.2) got' data'.socket) :
      EchoTurn d data deadline came e ({ d with stage := .awaitingEcho data' got' deadline }, [])
  | echoes (h : Echoed d.session came e) (data' : Party) (hkey : data'.key = data.key) :
      EchoTurn d data deadline came e
        ({ d with stage := .dialingLocal data' (e.1 + d.timeout) }, [.dial d.localAddr])
  | fails (h : ¬Unechoed deadline came e) (hno : ¬Echoed d.session came e) :
      EchoTurn d data deadline came e ({ d with stage := .ended }, [.drop data.key, .report false])

/-- A look at the data connection, with what is then read given a name. -/
theorem look_eq {data : Party} {got seen : Bytes} (h : d.stage = .awaitingEcho data got deadline)
    (hseen : got ++ data.socket.unread.take (Handshake.length - got.length) = seen) (now : Nat) :
    let data' := data.readOn (Handshake.length - got.length)
    d.look now =
      if data.socket.broken then d.fail [data']
      else if seen.length = Handshake.length then
        if seen = Handshake.encode d.session then
          ({ d with stage := .dialingLocal data' (now + d.timeout) }, [.dial d.localAddr])
        else d.fail [data']
      else if data.socket.remoteEnded then d.fail [data']
      else ({ d with stage := .awaitingEcho data' seen deadline }, []) := by
  subst hseen
  unfold look
  rw [h]
  rfl

theorem look_turn {data : Party} {got : Bytes} {came : Socket}
    (h : d.stage = .awaitingEcho data got deadline) (hreads : Reads came got data.socket) (now : Nat) :
    d.EchoTurn data deadline came (now, .look) (d.look now) := by
  obtain ⟨seen, hseen⟩ : ∃ seen, got ++ data.socket.unread.take (Handshake.length - got.length) = seen :=
    ⟨_, rfl⟩
  have hlook := look_eq h hseen now
  dsimp only at hlook
  cases hbroken : data.socket.broken with
  | true =>
    have hcame : came.broken = true := hreads.broken ▸ hbroken
    rw [hbroken, if_pos rfl] at hlook
    rw [hlook]
    refine .fails (fun hu => ?_) fun he => ?_
    · exact Bool.false_ne_true ((hu.short rfl).whole.symm.trans hcame)
    · exact Bool.false_ne_true (he.whole.symm.trans hcame)
  | false =>
    have hwhole : came.broken = false := hreads.broken ▸ hbroken
    have hread : seen = came.unread.take Handshake.length := hseen.symm.trans (hreads.seen hwhole)
    have hlength := congrArg List.length hread
    rw [List.length_take] at hlength
    rw [hbroken, if_neg Bool.false_ne_true] at hlook
    by_cases hfull : seen.length = Handshake.length
    · rw [if_pos hfull] at hlook
      by_cases hecho : seen = Handshake.encode d.session
      · rw [hlook, if_pos hecho]
        exact .echoes ⟨rfl, hwhole, hread.symm.trans hecho⟩ _ rfl
      · rw [hlook, if_neg hecho]
        refine .fails (fun hu => ?_) fun he => hecho (hread.trans he.echo)
        have := (hu.short rfl).missing
        omega
    · have hfew : came.unread.length < Handshake.length := by omega
      rw [if_neg hfull] at hlook
      cases hended : data.socket.remoteEnded with
      | true =>
        have hcame : came.remoteEnded = true := hreads.ended ▸ hended
        rw [hlook, if_pos hended]
        refine .fails (fun hu => ?_) fun he => ?_
        · exact Bool.false_ne_true ((hu.short rfl).goesOn.symm.trans hcame)
        · have hshort := congrArg List.length he.echo
          rw [List.length_take, Handshake.length_encode] at hshort
          omega
      | false =>
        have hu : Unechoed deadline came (now, .look) :=
          ⟨fun _ => ⟨hwhole, hreads.ended ▸ hended, hfew⟩, by simp⟩
        rw [hlook, hended, if_neg Bool.false_ne_true]
        refine .waits hu _ seen rfl
          ⟨hreads.broken, hreads.ended, fun _ => ?_, by omega⟩
        show came.unread = seen ++ data.socket.unread.drop _
        rw [← hseen, List.append_assoc, List.take_append_drop, hreads.all hwhole]

theorem echo_turn {data : Party} {got : Bytes} {came : Socket}
    (h : d.stage = .awaitingEcho data got deadline) (hreads : Reads came got data.socket)
    (e : Nat × DialEvent) : d.EchoTurn data deadline came e (d.stepAt e) := by
  obtain ⟨now, y⟩ := e
  have hwaits (hstep : d.step now y = (d, [])) (hhear : hear data.key came y = came)
      (hu : Unechoed deadline came (now, y)) :
      d.EchoTurn data deadline came (now, y) (d.stepAt (now, y)) := by
    have hstay : d.stepAt (now, y) = ({ d with stage := .awaitingEcho data got deadline }, []) :=
      hstep.trans (by rw [← h])
    rw [hstay]
    exact .waits hu data got rfl (hhear.symm ▸ hreads)
  cases y with
  | accepted key => exact hwaits (by simp only [step, accepted, h]) rfl ⟨by simp, by simp⟩
  | refused => exact hwaits (by simp only [step, refused, h]) rfl ⟨by simp, by simp⟩
  | relay y => exact hwaits (by simp only [step, relay, h]) rfl ⟨by simp, by simp⟩
  | look => exact look_turn h hreads now
  | clock =>
    by_cases hdue : deadline ≤ now
    · have hstep : d.stepAt (now, .clock) = d.fail [data] := by
        simp only [stepAt, step, clock, h, if_pos hdue]
      rw [hstep]
      exact .fails (fun hu => Nat.not_lt.mpr hdue (hu.early rfl)) fun he => by cases he.look
    · exact hwaits (by simp only [step, clock, h, if_neg hdue]) rfl
        ⟨by simp, fun _ => Nat.lt_of_not_le hdue⟩
  | receive key x =>
    have hstep : d.stepAt (now, .receive key x) =
        ({ d with stage := .awaitingEcho (data.receive key x) got deadline }, []) := by
      simp only [stepAt, step, receive, h]
    have hu : Unechoed deadline came (now, .receive key x) := ⟨by simp, by simp⟩
    rw [hstep]
    refine .waits hu _ got (Party.key_receive _ _ _) ?_
    rw [hear, Party.socket_receive]
    split
    · exact hreads.receive x
    · exact hreads

/-- What can happen to an attempt that dials its backend. -/
inductive LocalTurn (d : DialBack) (data : Party) (deadline : Nat) (e : Nat × DialEvent) :
    DialBack × List DialEffect → Prop
  | waits (h : Unanswered deadline e) (data' : Party) (hkey : data'.key = data.key) :
      LocalTurn d data deadline e ({ d with stage := .dialingLocal data' deadline }, [])
  | serves (key : Nat) (h : e.2 = .accepted key) : LocalTurn d data deadline e
      ({ d with stage := .relaying { front := data, back := ⟨key, {}⟩ } }, [.report true])
  | fails (hno : ∀ key, e.2 ≠ .accepted key) (h : ¬Unanswered deadline e) :
      LocalTurn d data deadline e ({ d with stage := .ended }, [.drop data.key, .report false])

theorem local_turn {data : Party} (h : d.stage = .dialingLocal data deadline) (e : Nat × DialEvent) :
    d.LocalTurn data deadline e (d.stepAt e) := by
  obtain ⟨now, y⟩ := e
  have hwaits (hstep : d.step now y = (d, [])) (hu : Unanswered deadline (now, y)) :
      d.LocalTurn data deadline (now, y) (d.stepAt (now, y)) := by
    have hstay : d.stepAt (now, y) = ({ d with stage := .dialingLocal data deadline }, []) :=
      hstep.trans (by rw [← h])
    rw [hstay]
    exact .waits hu data rfl
  have hfails (hstep : d.step now y = d.fail [data]) (hno : ∀ key, y ≠ .accepted key)
      (hu : ¬Unanswered deadline (now, y)) :
      d.LocalTurn data deadline (now, y) (d.stepAt (now, y)) := by
    rw [stepAt, hstep]
    exact .fails hno hu
  cases y with
  | accepted key =>
    have hstep : d.stepAt (now, .accepted key) =
        ({ d with stage := .relaying { front := data, back := ⟨key, {}⟩ } }, [.report true]) := by
      simp only [stepAt, step, accepted, h]
    rw [hstep]
    exact .serves key rfl
  | refused => exact hfails (by simp only [step, refused, h]) (by simp) fun hu => hu.refused rfl
  | clock =>
    by_cases hdue : deadline ≤ now
    · exact hfails (by simp only [step, clock, h, if_pos hdue]) (by simp)
        fun hu => Nat.not_lt.mpr hdue (hu.early rfl)
    · exact hwaits (by simp only [step, clock, h, if_neg hdue])
        ⟨by simp, by simp, fun _ => Nat.lt_of_not_le hdue⟩
  | receive key x =>
    have hstep : d.stepAt (now, .receive key x) =
        ({ d with stage := .dialingLocal (data.receive key x) deadline }, []) := by
      simp only [stepAt, step, receive, h]
    have hu : Unanswered deadline (now, .receive key x) := ⟨by simp, by simp, by simp⟩
    rw [hstep]
    exact .waits hu _ (Party.key_receive _ _ _)
  | look => exact hwaits (by simp only [step, look, h]) ⟨by simp, by simp, by simp⟩
  | relay y => exact hwaits (by simp only [step, relay, h]) ⟨by simp, by simp, by simp⟩

theorem step_ended (h : d.stage = .ended) (e : Nat × DialEvent) : d.stepAt e = (d, []) := by
  obtain ⟨now, y⟩ := e
  cases y <;> simp only [stepAt, step, accepted, refused, receive, look, clock, relay, h]

theorem step_concluded (h : d.stage.concluded = true) (e : Nat × DialEvent) :
    (d.stepAt e).1.stage.concluded = true ∧ ∀ x ∈ (d.stepAt e).2, x.isService = true := by
  cases hstage : d.stage with
  | dialingData _ | awaitingEcho _ _ _ | dialingLocal _ _ =>
    rw [hstage] at h
    cases h
  | ended =>
    rw [step_ended hstage, hstage]
    exact ⟨rfl, by simp⟩
  | relaying r =>
    obtain ⟨now, y⟩ := e
    cases y with
    | accepted _ | refused | look | clock =>
      simp only [stepAt, step, accepted, refused, look, clock, hstage]
      exact ⟨rfl, by simp⟩
    | receive key x =>
      simp only [stepAt, step, receive, hstage]
      exact ⟨rfl, by simp⟩
    | relay y =>
      simp only [stepAt, step, relay, hstage]
      split
      · refine ⟨rfl, fun x hx => ?_⟩
        obtain ⟨z, -, rfl⟩ := List.mem_map.mp hx
        rfl
      · refine ⟨rfl, fun x hx => ?_⟩
        rcases List.mem_pair.mp hx with rfl | rfl <;> rfl

end DialBack

section

variable {session : UInt32} {dataAddr localAddr : String} {fx es : List DialEffect}

theorem Goes.append (h : Goes session dataAddr localAddr (some true) fx) (hes : ∀ x ∈ es, x.isService = true) :
    Goes session dataAddr localAddr (some true) (fx ++ es) := by
  cases h with
  | serves key before hbefore =>
    rw [List.append_assoc]
    exact .serves key _ fun x hx => (List.mem_append.mp hx).elim (hbefore x) (hes x)

theorem Goes.report {verdict : Option Bool} {success : Bool}
    (h : Goes session dataAddr localAddr verdict fx) (hmem : .report success ∈ fx) :
    verdict = some success := by
  cases h with
  | dialing | greeted _ | echoed _ => simp [hello] at hmem
  | unreached | unpaired _ | unserved _ => simpa [hello, eq_comm] using hmem
  | serves key es hes =>
    rcases List.mem_append.mp hmem with hmem | hmem
    · simpa [hello, eq_comm] using hmem
    · cases hes _ hmem

theorem Goes.report_mem {success : Bool} (h : Goes session dataAddr localAddr (some success) fx) :
    .report success ∈ fx := by
  cases h <;> simp

end

namespace DialBack

/-! ## What happened until a moment -/

/-- The life of an attempt that is begun at a time. -/
abbrev Life (session : UInt32) (dataAddr localAddr : String) (timeout begun : Nat) :=
  Course stepAt (start session dataAddr localAddr timeout begun).1

section Life

variable {session : UInt32} {dataAddr localAddr : String} {timeout begun : Nat}
  (life : Life session dataAddr localAddr timeout begun) {key a i j n : Nat}

/-- All that was done before a moment, with the dial that an attempt begins with. -/
def done (n : Nat) : List DialEffect := .dial dataAddr :: life.effects n

/-- When the time is up for what is awaited since a moment. -/
def dueAfter (n : Nat) : Nat := (life.happens n).1 + timeout

/-- The data proxy accepts at a moment, which is the first answer, and in time. -/
structure Reaches (key a : Nat) : Prop where
  accepts : (life.happens a).2 = .accepted key
  waited : ∀ m < a, Unanswered (begun + timeout) (life.happens m)

/-- What came in on a connection with so many events after a moment. -/
def came (key a : Nat) : Nat → Socket
  | 0 => {}
  | i + 1 => hear key (came key a i) (life.happens (a + 1 + i)).2

/-- The data proxy was reached at a moment, and with so many events after it the echo stayed
awaited. -/
structure Awaits (key a i : Nat) : Prop where
  reached : Reaches life key a
  waited : ∀ j < i, Unechoed (dueAfter life a) (came life key a j) (life.happens (a + 1 + j))

/-- The echo is there with the next event after so many. -/
structure Echoes (key a i : Nat) : Prop where
  awaited : Awaits life key a i
  echo : Echoed session (came life key a i) (life.happens (a + 1 + i))

/-- The echo was there, and with so many events after that the backend did not answer. -/
structure Calls (key a i j : Nat) : Prop where
  echoed : Echoes life key a i
  waited : ∀ m < j, Unanswered (dueAfter life (a + 1 + i)) (life.happens (a + 1 + i + 1 + m))

/-- How an attempt comes out, and with the event of which moment, by what happened to it. -/
inductive Concludes : Nat → Bool → Prop
  /-- The data proxy does not accept, or not in time. -/
  | unreached (n : Nat) (waited : ∀ m < n, Unanswered (begun + timeout) (life.happens m))
      (hno : ∀ key, (life.happens n).2 ≠ .accepted key)
      (h : ¬Unanswered (begun + timeout) (life.happens n)) : Concludes n false
  /-- What comes back is not the handshake, or not in time. -/
  | unpaired (key a i : Nat) (awaited : Awaits life key a i)
      (h : ¬Unechoed (dueAfter life a) (came life key a i) (life.happens (a + 1 + i)))
      (hno : ¬Echoed session (came life key a i) (life.happens (a + 1 + i))) :
      Concludes (a + 1 + i) false
  /-- The backend does not accept, or not in time. -/
  | unserved (key a i j : Nat) (called : Calls life key a i j)
      (hno : ∀ key, (life.happens (a + 1 + i + 1 + j)).2 ≠ .accepted key)
      (h : ¬Unanswered (dueAfter life (a + 1 + i)) (life.happens (a + 1 + i + 1 + j))) :
      Concludes (a + 1 + i + 1 + j) false
  /-- The first eight bytes that come back are the handshake, and then the backend accepts. -/
  | serves (key a i j backend : Nat) (called : Calls life key a i j)
      (accepts : (life.happens (a + 1 + i + 1 + j)).2 = .accepted backend) :
      Concludes (a + 1 + i + 1 + j) true

/-- What an attempt has done when it is at a stage, and what happened to it until then. -/
inductive Lived (n : Nat) : DialStage → List DialEffect → Prop
  | dialing (waited : ∀ m < n, Unanswered (begun + timeout) (life.happens m)) :
      Lived n (.dialingData (begun + timeout)) [.dial dataAddr]
  | greeted {data : Party} {got : Bytes} {a i : Nat} (hn : n = a + 1 + i) (awaited : Awaits life data.key a i)
      (reads : Reads (came life data.key a i) got data.socket) :
      Lived n (.awaitingEcho data got (dueAfter life a)) [.dial dataAddr, hello session data.key]
  | echoed {data : Party} {a i j : Nat} (hn : n = a + 1 + i + 1 + j) (called : Calls life data.key a i j) :
      Lived n (.dialingLocal data (dueAfter life (a + 1 + i)))
        [.dial dataAddr, hello session data.key, .dial localAddr]
  | failed {fx : List DialEffect} (h : Goes session dataAddr localAddr (some false) fx) :
      Lived n .ended fx
  | served {stage : DialStage} {fx : List DialEffect} (hstage : stage.concluded = true)
      (h : Goes session dataAddr localAddr (some true) fx) : Lived n stage fx

theorem Lived.goes {stage : DialStage} {fx : List DialEffect} (h : Lived life n stage fx) :
    ∃ verdict, Goes session dataAddr localAddr verdict fx ∧ verdict.isSome = stage.concluded := by
  cases h with
  | dialing => exact ⟨none, .dialing, rfl⟩
  | greeted => exact ⟨none, .greeted _, rfl⟩
  | echoed => exact ⟨none, .echoed _, rfl⟩
  | failed h => exact ⟨some false, h, rfl⟩
  | served hstage h => exact ⟨some true, h, hstage.symm⟩

theorem own_fields (n : Nat) : (life.state n).session = session ∧
    (life.state n).localAddr = localAddr ∧ (life.state n).timeout = timeout :=
  life.always (P := fun d => d.session = session ∧ d.localAddr = localAddr ∧ d.timeout = timeout)
    ⟨rfl, rfl, rfl⟩ (fun d e h => by rw [stepAt, step_eq]; exact h) n

/-- What an attempt does at a moment is said by what happened to it. -/
structure Explained (n : Nat) (es : List DialEffect) : Prop where
  report : ∀ success, .report success ∈ es →
    Concludes life n success ∧ ∃ data : List Nat, es = data.map .drop ++ [.report success]
  dial : ∀ addr, .dial addr ∈ es → addr = localAddr ∧ ∃ key a i, n = a + 1 + i ∧ Echoes life key a i

/-- Only what is dialed or reported needs to be explained. -/
theorem explained_of_service {es : List DialEffect} (h : ∀ x ∈ es, x.isService = true) :
    Explained life n es where
  report _ hx := by cases h _ hx
  dial _ hx := by cases h _ hx

theorem explained_of_report {success : Bool} (data : List Nat) (h : Concludes life n success) :
    Explained life n (data.map .drop ++ [.report success]) where
  report success' hx := by
    obtain rfl : success' = success := by simpa using hx
    exact ⟨h, data, rfl⟩
  dial addr hx := by simp at hx

variable {life}

theorem waited_succ {P : Nat → Prop} (h : ∀ m < n, P m) (hn : P n) : ∀ m < n + 1, P m := by
  intro m hm
  rcases Nat.lt_succ_iff_lt_or_eq.mp hm with hlt | rfl
  · exact h m hlt
  · exact hn

theorem Lived.step {fx : List DialEffect} (h : Lived life n (life.state n).stage fx) :
    Lived life (n + 1) (life.state (n + 1)).stage (fx ++ life.effectsAt n) ∧
      Explained life n (life.effectsAt n) := by
  obtain ⟨hsession, hlocal, htimeout⟩ := own_fields life n
  show Lived life (n + 1) (stepAt (life.state n) (life.happens n)).1.stage
    (fx ++ (stepAt (life.state n) (life.happens n)).2) ∧
      Explained life n (stepAt (life.state n) (life.happens n)).2
  generalize hstage : (life.state n).stage = stage at h
  cases h with
  | dialing waited =>
    have hturn := data_turn hstage (life.happens n)
    generalize stepAt (life.state n) (life.happens n) = x at hturn
    cases hturn with
    | waits h =>
      rw [hstage]
      exact ⟨.dialing (waited_succ waited h), explained_of_service life (by simp)⟩
    | greets key haccepts =>
      rw [hsession, htimeout]
      refine ⟨.greeted (i := 0) rfl ⟨⟨haccepts, waited⟩, by simp⟩
        ⟨rfl, rfl, fun _ => rfl, by decide⟩, explained_of_service life fun x hx => ?_⟩
      rw [List.mem_singleton.mp hx]
      rfl
    | fails hno h =>
      exact ⟨.failed .unreached, explained_of_report life [] (.unreached n waited hno h)⟩
  | @greeted data got a i hn awaited reads =>
    have hturn := echo_turn hstage reads (life.happens n)
    generalize stepAt (life.state n) (life.happens n) = x at hturn
    subst hn
    cases hturn with
    | waits h data' got' hkey hreads =>
      rw [← hkey] at awaited h hreads ⊢
      exact ⟨.greeted rfl ⟨awaited.reached, waited_succ awaited.waited h⟩ hreads,
        explained_of_service life (by simp)⟩
    | echoes h data' hkey =>
      rw [hlocal, htimeout]
      rw [hsession, ← hkey] at h
      rw [← hkey] at awaited ⊢
      refine ⟨.echoed (j := 0) rfl ⟨⟨awaited, h⟩, by simp⟩, ⟨fun success hx => ?_, fun addr hx => ?_⟩⟩
      · cases List.mem_singleton.mp hx
      · cases List.mem_singleton.mp hx
        exact ⟨rfl, data'.key, a, i, rfl, awaited, h⟩
    | fails h hno =>
      rw [hsession] at hno
      exact ⟨.failed (.unpaired data.key),
        explained_of_report life [data.key] (.unpaired data.key a i awaited h hno)⟩
  | @echoed data a i j hn called =>
    have hturn := local_turn hstage (life.happens n)
    generalize stepAt (life.state n) (life.happens n) = x at hturn
    subst hn
    cases hturn with
    | waits h data' hkey =>
      rw [← hkey] at called ⊢
      exact ⟨.echoed rfl ⟨called.echoed, waited_succ called.waited h⟩, explained_of_service life (by simp)⟩
    | serves backend haccepts =>
      exact ⟨.served rfl (.serves data.key [] (by simp)),
        explained_of_report life [] (.serves data.key a i j backend called haccepts)⟩
    | fails hno h =>
      exact ⟨.failed (.unserved data.key),
        explained_of_report life [data.key] (.unserved data.key a i j called hno h)⟩
  | failed h =>
    rw [step_ended hstage, List.append_nil, hstage]
    exact ⟨.failed h, explained_of_service life (by simp)⟩
  | served hconcluded h =>
    obtain ⟨hstill, hservice⟩ := step_concluded (hstage ▸ hconcluded) (life.happens n)
    exact ⟨.served hstill (h.append hservice), explained_of_service life hservice⟩

theorem lived (life : Life session dataAddr localAddr timeout begun) (n : Nat) :
    Lived life n (life.state n).stage (done life n) := by
  induction n with
  | zero => exact .dialing (by simp)
  | succ n ih => exact ih.step.1

theorem goes (life : Life session dataAddr localAddr timeout begun) (n : Nat) :
    ∃ verdict, Goes session dataAddr localAddr verdict (done life n) ∧
      verdict.isSome = (life.state n).stage.concluded := (lived life n).goes

/-- What an attempt does when it reports: before that it drops its data connection at most. -/
theorem effectsAt_of_report {success : Bool} (h : .report success ∈ life.effectsAt n) :
    ∃ data : List Nat, life.effectsAt n = data.map .drop ++ [.report success] :=
  ((lived life n).step.2.report success h).2

/-! ## What happens decides -/

theorem stage_of_waited (waited : ∀ m < n, Unanswered (begun + timeout) (life.happens m)) :
    (life.state n).stage = .dialingData (begun + timeout) := by
  induction n with
  | zero => rfl
  | succ n ih =>
    have hstage := ih fun m hm => waited m (Nat.lt_succ_of_lt hm)
    have hnow := waited n (Nat.lt_succ_self n)
    have hturn := data_turn hstage (life.happens n)
    show (stepAt (life.state n) (life.happens n)).1.stage = _
    generalize stepAt (life.state n) (life.happens n) = x at hturn
    cases hturn with
    | waits => exact hstage
    | greets key haccepts => exact absurd haccepts (hnow.accepted key)
    | fails _ h => exact absurd hnow h

theorem stage_of_awaits (h : Awaits life key a i) : ∃ data got, data.key = key ∧
    Reads (came life key a i) got data.socket ∧
    (life.state (a + 1 + i)).stage = .awaitingEcho data got (dueAfter life a) := by
  induction i with
  | zero =>
    obtain ⟨-, -, htimeout⟩ := own_fields life a
    have hturn := data_turn (stage_of_waited h.reached.waited) (life.happens a)
    show ∃ data got, _ ∧ _ ∧ (stepAt (life.state a) (life.happens a)).1.stage = _
    generalize stepAt (life.state a) (life.happens a) = x at hturn
    cases hturn with
    | waits hno => exact absurd h.reached.accepts (hno.accepted key)
    | greets key' haccepts =>
      cases haccepts.symm.trans h.reached.accepts
      refine ⟨⟨key, {}⟩, [], rfl, ⟨rfl, rfl, fun _ => rfl, by decide⟩, ?_⟩
      rw [htimeout]
      rfl
    | fails hno => exact absurd h.reached.accepts (hno key)
  | succ i ih =>
    obtain ⟨data, got, rfl, hreads, hstage⟩ :=
      ih ⟨h.reached, fun j hj => h.waited j (Nat.lt_succ_of_lt hj)⟩
    have hnow := h.waited i (Nat.lt_succ_self i)
    have hturn := echo_turn hstage hreads (life.happens (a + 1 + i))
    show ∃ data' got', _ ∧ _ ∧ (stepAt (life.state (a + 1 + i)) (life.happens (a + 1 + i))).1.stage = _
    generalize stepAt (life.state (a + 1 + i)) (life.happens (a + 1 + i)) = x at hturn
    cases hturn with
    | waits _ data' got' hkey hreads' => exact ⟨data', got', hkey, hreads', rfl⟩
    | echoes hecho => exact absurd hnow hecho.not_unechoed
    | fails hno => exact absurd hnow hno

theorem effectsAt_of_echoes (h : Echoes life key a i) : ∃ data, data.key = key ∧
    (life.state (a + 1 + i + 1)).stage = .dialingLocal data (dueAfter life (a + 1 + i)) ∧
    life.effectsAt (a + 1 + i) = [.dial localAddr] := by
  obtain ⟨data, got, rfl, hreads, hstage⟩ := stage_of_awaits h.awaited
  obtain ⟨hsession, hlocal, htimeout⟩ := own_fields life (a + 1 + i)
  have hturn := echo_turn hstage hreads (life.happens (a + 1 + i))
  show ∃ data', _ ∧ (stepAt (life.state (a + 1 + i)) (life.happens (a + 1 + i))).1.stage = _ ∧
    (stepAt (life.state (a + 1 + i)) (life.happens (a + 1 + i))).2 = _
  generalize stepAt (life.state (a + 1 + i)) (life.happens (a + 1 + i)) = x at hturn
  cases hturn with
  | waits hno => exact absurd hno h.echo.not_unechoed
  | echoes _ data' hkey =>
    refine ⟨data', hkey, ?_, ?_⟩
    · rw [htimeout]
      rfl
    · rw [hlocal]
  | fails _ hno =>
    rw [hsession] at hno
    exact absurd h.echo hno

theorem stage_of_calls (h : Calls life key a i j) : ∃ data, data.key = key ∧
    (life.state (a + 1 + i + 1 + j)).stage = .dialingLocal data (dueAfter life (a + 1 + i)) := by
  induction j with
  | zero =>
    obtain ⟨data, hkey, hstage, -⟩ := effectsAt_of_echoes h.echoed
    exact ⟨data, hkey, hstage⟩
  | succ j ih =>
    obtain ⟨data, rfl, hstage⟩ := ih ⟨h.echoed, fun m hm => h.waited m (Nat.lt_succ_of_lt hm)⟩
    have hnow := h.waited j (Nat.lt_succ_self j)
    have hturn := local_turn hstage (life.happens (a + 1 + i + 1 + j))
    show ∃ data', _ ∧
      (stepAt (life.state (a + 1 + i + 1 + j)) (life.happens (a + 1 + i + 1 + j))).1.stage = _
    generalize stepAt (life.state (a + 1 + i + 1 + j)) (life.happens (a + 1 + i + 1 + j)) = x at hturn
    cases hturn with
    | waits _ data' hkey => exact ⟨data', hkey, rfl⟩
    | serves backend haccepts => exact absurd haccepts (hnow.accepted backend)
    | fails _ hno => exact absurd hnow hno

/-- The backend is dialed when the echo is there, and at no other moment. -/
theorem dials_iff {addr : String} : .dial addr ∈ life.effectsAt n ↔
    addr = localAddr ∧ ∃ key a i, n = a + 1 + i ∧ Echoes life key a i := by
  constructor
  · exact (lived life n).step.2.dial addr
  · rintro ⟨rfl, key, a, i, rfl, h⟩
    obtain ⟨-, -, -, heffects⟩ := effectsAt_of_echoes h
    rw [heffects]
    exact List.mem_singleton_self _

/-- An attempt reports when what happened to it has decided how it comes out, and so. -/
theorem reports_iff {success : Bool} :
    .report success ∈ life.effectsAt n ↔ Concludes life n success := by
  constructor
  · exact fun h => ((lived life n).step.2.report success h).1
  · intro h
    show .report success ∈ (stepAt (life.state _) (life.happens _)).2
    cases h with
    | unreached n waited hno h =>
      have hturn := data_turn (stage_of_waited waited) (life.happens n)
      generalize stepAt (life.state n) (life.happens n) = x at hturn
      cases hturn with
      | waits hwaits => exact absurd hwaits h
      | greets key haccepts => exact absurd haccepts (hno key)
      | fails => exact List.mem_singleton_self _
    | unpaired key a i awaited h hno =>
      obtain ⟨data, got, rfl, hreads, hstage⟩ := stage_of_awaits awaited
      obtain ⟨hsession, -, -⟩ := own_fields life (a + 1 + i)
      have hturn := echo_turn hstage hreads (life.happens (a + 1 + i))
      generalize stepAt (life.state (a + 1 + i)) (life.happens (a + 1 + i)) = x at hturn
      cases hturn with
      | waits hwaits => exact absurd hwaits h
      | echoes hecho =>
        rw [hsession] at hecho
        exact absurd hecho hno
      | fails => exact List.mem_cons_of_mem _ (List.mem_singleton_self _)
    | unserved key a i j called hno h =>
      obtain ⟨data, rfl, hstage⟩ := stage_of_calls called
      have hturn := local_turn hstage (life.happens (a + 1 + i + 1 + j))
      generalize stepAt (life.state (a + 1 + i + 1 + j)) (life.happens (a + 1 + i + 1 + j)) = x at hturn
      cases hturn with
      | waits hwaits => exact absurd hwaits h
      | serves backend haccepts => exact absurd haccepts (hno backend)
      | fails => exact List.mem_cons_of_mem _ (List.mem_singleton_self _)
    | serves key a i j backend called haccepts =>
      obtain ⟨data, rfl, hstage⟩ := stage_of_calls called
      have hturn := local_turn hstage (life.happens (a + 1 + i + 1 + j))
      generalize stepAt (life.state (a + 1 + i + 1 + j)) (life.happens (a + 1 + i + 1 + j)) = x at hturn
      cases hturn with
      | waits hwaits => exact absurd haccepts (hwaits.accepted backend)
      | serves => exact List.mem_singleton_self _
      | fails hno => exact absurd haccepts (hno backend)

/-! ## Once, and on time -/

theorem concluded_of_report {success : Bool} (h : .report success ∈ life.effectsAt n) :
    (life.state (n + 1)).stage.concluded = true ∧
      Goes session dataAddr localAddr (some success) (done life (n + 1)) := by
  obtain ⟨verdict, hgoes, hconcluded⟩ := goes life (n + 1)
  have hmem : .report success ∈ done life (n + 1) :=
    List.mem_cons_of_mem _ (List.mem_append_right _ h)
  obtain rfl := hgoes.report hmem
  exact ⟨hconcluded.symm, hgoes⟩

/-- An attempt reports at most once. -/
theorem reports_once {m : Nat} {success success' : Bool} (hm : .report success ∈ life.effectsAt m)
    (hn : .report success' ∈ life.effectsAt n) : m = n ∧ success = success' := by
  -- after a report nothing but service follows
  have hlater {m n : Nat} {success success' : Bool} (hm : .report success ∈ life.effectsAt m)
      (hn : .report success' ∈ life.effectsAt n) : n ≤ m := by
    by_contra hmn
    have hconcluded := life.from_then_on (P := fun d => d.stage.concluded = true)
      (fun d e h => (step_concluded h e).1) (Nat.lt_of_not_le hmn) (concluded_of_report hm).1
    cases (step_concluded hconcluded (life.happens n)).2 _ hn
  obtain rfl := Nat.le_antisymm (hlater hn hm) (hlater hm hn)
  refine ⟨rfl, ?_⟩
  have hmem : .report success' ∈ done life (m + 1) :=
    List.mem_cons_of_mem _ (List.mem_append_right _ hn)
  exact Option.some.inj ((concluded_of_report hm).2.report hmem)

theorem report_of_concluded (h : (life.state n).stage.concluded = true) :
    ∃ m success, m < n ∧ .report success ∈ life.effectsAt m := by
  obtain ⟨verdict, hgoes, hverdict⟩ := goes life n
  obtain ⟨success, rfl⟩ := Option.isSome_iff_exists.mp (hverdict.trans h)
  have hreport : .report success ∈ life.effects n :=
    (List.mem_cons.mp hgoes.report_mem).resolve_left (by simp)
  obtain ⟨m, hm, hmem⟩ := life.mem_effects hreport
  exact ⟨m, success, hm, hmem⟩

/-- No event comes after the time is up for what is awaited. -/
def Punctual (life : Life session dataAddr localAddr timeout begun) : Prop :=
  ∀ n deadline, (life.state n).stage.deadline? = some deadline → (life.happens n).1 ≤ deadline

/-- The data proxy, the echo and the backend are each waited for no longer than the dial timeout. -/
theorem Calls.on_time (h : Calls life key a i j) (hpunctual : Punctual life) :
    (life.happens a).1 ≤ begun + timeout ∧
      (life.happens (a + 1 + i)).1 ≤ (life.happens a).1 + timeout ∧
      (life.happens (a + 1 + i + 1 + j)).1 ≤ (life.happens (a + 1 + i)).1 + timeout := by
  obtain ⟨data, got, -, -, hawaiting⟩ := stage_of_awaits h.echoed.awaited
  obtain ⟨data', -, hcalling⟩ := stage_of_calls h
  refine ⟨hpunctual a _ ?_, hpunctual _ _ ?_, hpunctual _ _ ?_⟩
  · rw [stage_of_waited h.echoed.awaited.reached.waited]
    rfl
  · rw [hawaiting]
    rfl
  · rw [hcalling]
    rfl

end Life

end DialBack

end Client

end ReverseTunnel

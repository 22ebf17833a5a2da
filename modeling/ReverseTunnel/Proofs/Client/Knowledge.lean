import ReverseTunnel.Proofs.Client.DialBack
import ReverseTunnel.Proofs.Client.Serving
import ReverseTunnel.Proofs.Course

/-!
What a client knows on a control connection, and what it makes of it.

A step on a connection publishes states, calls for heartbeats and begins attempts to dial
back as the message says that is handled with it (`Serving.Turn`). What the client knows is
what it was told on this connection and nothing else (`session_eq_known`), and all that it
does with a cadence or with a port for data connections it does with what was known of them
on this connection at the time (`used_what_was_known`). The first message that it emits is
its token, and it emits it only once (`introduces_itself_once`).
-/

namespace ReverseTunnel.Client

open Control
open Wire (Message)

variable {o : Options} {a : Seal.Aead} {now : Nat} {nonce : Bytes} {m : Message}

/-! ## What a client is told -/

/-- What is known after a message. -/
def Session.told (s : Session) : Message → Session
  | .openDataPortAck true _ delay port =>
    { heartbeatDelay := cadence s.heartbeatDelay delay, dataPort := port }
  | _ => s

/-- What is known after messages were handled on a connection. -/
def known (o : Options) (ms : List Message) : Session := ms.foldl Session.told (.start o)

theorem known_snoc (o : Options) (ms : List Message) (m : Message) :
    known o (ms ++ [m]) = (known o ms).told m := List.foldl_append ..

/-! ## What a message makes a client do -/

/-- A message that calls for a heartbeat. -/
def callsForBeat : Message → Bool
  | .authAck true _ => true
  | .heartbeatAck _ _ => true
  | _ => false

/-- A message that says that the client is accepted. -/
def approves : Message → Bool
  | .authAck true _ => true
  | _ => false

/-- All that a client does about a message. -/
inductive Responds (o : Options) (a : Seal.Aead) (nonce : Bytes) (s : Session) :
    Message → Session × List SessionAction → Prop
  | approved (message : String) : Responds o a nonce s (.authAck true message)
      (s, .publish .authenticated :: .beatAfter s.heartbeatDelay :: Session.portRequest o a nonce)
  | acknowledged (timestamp serverTime : UInt64) :
      Responds o a nonce s (.heartbeatAck timestamp serverTime) (s, [.beatAfter s.heartbeatDelay])
  | provisioned (message : String) (delay : UInt64) (port : UInt16) :
      Responds o a nonce s (.openDataPortAck true message delay port)
        (s.told (.openDataPortAck true message delay port), [])
  | called (session : UInt32) (p : ProxyOptions) (hp : o.proxy = some p) (hport : s.dataPort ≠ 0) :
      Responds o a nonce s (.openDataConn session)
        (s, [.dialBack session (Address.join p.dataHost s.dataPort) p.localAddr])
  | passedOver (m : Message) (happroves : approves m = false) (hcalls : callsForBeat m = false)
      (htold : s.told m = s) : Responds o a nonce s m (s, [])

theorem responds (o : Options) (a : Seal.Aead) (nonce : Bytes) (s : Session) (m : Message) :
    Responds o a nonce s m (s.handle o a nonce m) := by
  cases m with
  | authAck success message =>
    cases success with
    | true => exact .approved message
    | false => exact .passedOver _ rfl rfl rfl
  | heartbeatAck timestamp serverTime => exact .acknowledged timestamp serverTime
  | openDataPortAck success message delay port =>
    cases success with
    | true => exact .provisioned message delay port
    | false => exact .passedOver _ rfl rfl rfl
  | openDataConn session =>
    simp only [Session.handle]
    split
    · rename_i p hp
      split
      · exact .passedOver _ rfl rfl rfl
      · rename_i hport
        exact .called session p hp hport
    · exact .passedOver _ rfl rfl rfl
  | _ => exact .passedOver _ rfl rfl rfl

/-- The states that actions publish. -/
def statesIn (xs : List SessionAction) : List State :=
  xs.filterMap fun | .publish s => some s | _ => none

/-- The delays after which actions call for heartbeats. -/
def delaysIn (xs : List SessionAction) : List Nat :=
  xs.filterMap fun | .beatAfter delay => some delay | _ => none

/-- The attempts to dial back that actions begin at a time. -/
def dialsIn (o : Options) (now : Nat) (xs : List SessionAction) : List DialBack :=
  xs.filterMap fun
    | .dialBack session dataAddr localAddr =>
      some (DialBack.start session dataAddr localAddr o.dialTimeout now).1
    | _ => none

theorem statesIn_append (xs ys : List SessionAction) :
    statesIn (xs ++ ys) = statesIn xs ++ statesIn ys := List.filterMap_append

theorem delaysIn_append (xs ys : List SessionAction) :
    delaysIn (xs ++ ys) = delaysIn xs ++ delaysIn ys := List.filterMap_append

theorem dialsIn_append (o : Options) (now : Nat) (xs ys : List SessionAction) :
    dialsIn o now (xs ++ ys) = dialsIn o now xs ++ dialsIn o now ys := List.filterMap_append

theorem portRequest_emits (o : Options) (a : Seal.Aead) (nonce : Bytes) :
    statesIn (Session.portRequest o a nonce) = [] ∧ delaysIn (Session.portRequest o a nonce) = [] ∧
      (∀ o' now, dialsIn o' now (Session.portRequest o a nonce) = []) ∧
      ∀ m ∈ emittedBy (Session.portRequest o a nonce), m.kind = .openDataPort := by
  unfold Session.portRequest
  split
  · exact ⟨rfl, rfl, fun _ _ => rfl, nofun⟩
  · refine ⟨rfl, rfl, fun _ _ => rfl, fun m hm => ?_⟩
    rw [List.mem_singleton.mp hm]
    rfl

/-- What a client does about a message, one kind of action after another: only its approval
is published, a heartbeat is called for with the delay that is known, an attempt dials the
port that is known, and only a request for a port is emitted. -/
structure Response (o : Options) (now : Nat) (s : Session) (m : Message)
    (r : Session × List SessionAction) : Prop where
  session : r.1 = s.told m
  states : statesIn r.2 = if approves m then [.authenticated] else []
  delays : delaysIn r.2 = if callsForBeat m then [s.heartbeatDelay] else []
  dials : ∀ d ∈ dialsIn o now r.2, ∃ p, o.proxy = some p ∧ s.dataPort ≠ 0 ∧
    d.dataAddr = Address.join p.dataHost s.dataPort
  emits : ∀ k ∈ emittedBy r.2, k.kind = .openDataPort

theorem response (o : Options) (a : Seal.Aead) (now : Nat) (nonce : Bytes) (s : Session)
    (m : Message) : Response o now s m (s.handle o a nonce m) := by
  have h := responds o a nonce s m
  generalize s.handle o a nonce m = r at h
  cases h with
  | approved message =>
    obtain ⟨hstates, hdelays, hdials, hemits⟩ := portRequest_emits o a nonce
    exact ⟨rfl, congrArg (State.authenticated :: ·) hstates, congrArg (s.heartbeatDelay :: ·) hdelays,
      fun d hd => absurd (hdials o now ▸ hd : d ∈ []) List.not_mem_nil, hemits⟩
  | acknowledged => exact ⟨rfl, rfl, rfl, nofun, nofun⟩
  | provisioned => exact ⟨rfl, rfl, rfl, nofun, nofun⟩
  | called session p hp hport =>
    refine ⟨rfl, rfl, rfl, fun d hd => ?_, nofun⟩
    rw [List.mem_singleton.mp hd]
    exact ⟨p, hp, hport, rfl⟩
  | passedOver m happroves hcalls htold =>
    exact ⟨htold.symm, by rw [happroves]; rfl, by rw [hcalls]; rfl, nofun, nofun⟩

/-! ## What a step on a connection does -/

/-- The states that a step on a connection publishes. -/
def published (fx : List ServingEffect) : List State :=
  fx.filterMap fun | .publish s => some s | _ => none

theorem published_append (fx fy : List ServingEffect) :
    published (fx ++ fy) = published fx ++ published fy := List.filterMap_append

theorem published_links (ls : List LinkEffect) : published (ls.map .link) = [] := by
  rw [published, List.filterMap_map]
  exact List.filterMap_eq_nil_iff.mpr fun _ _ => rfl

namespace Serving

variable {s s' s'' : Serving} {fx fy : List ServingEffect}

/-- What comes of actions: what is known stays, and the rest is added. -/
structure Performs (o : Options) (now : Nat) (s : Serving) (xs : List SessionAction)
    (r : Serving × List ServingEffect) : Prop where
  session : r.1.session = s.session
  beats : r.1.beats = s.beats ++ (delaysIn xs).map (now + ·)
  dials : r.1.dials = s.dials ++ dialsIn o now xs
  states : published r.2 = statesIn xs

theorem performs_emit (o : Options) (now : Nat) (s : Serving) (m : Message) :
    s.Performs o now [.emit m] (s.emit m) := by
  refine ⟨rfl, (List.append_nil _).symm, (List.append_nil _).symm, ?_⟩
  exact published_links _

theorem performs_perform (o : Options) (now : Nat) (s : Serving) (x : SessionAction) :
    s.Performs o now [x] (s.perform o now x) := by
  cases x with
  | publish state => exact ⟨rfl, (List.append_nil _).symm, (List.append_nil _).symm, rfl⟩
  | emit m => exact performs_emit o now s m
  | beatAfter delay => exact ⟨rfl, rfl, (List.append_nil _).symm, rfl⟩
  | dialBack session dataAddr localAddr => exact ⟨rfl, (List.append_nil _).symm, rfl, rfl⟩

theorem Performs.trans {xs ys : List SessionAction} (h : s.Performs o now xs (s', fx))
    (h' : s'.Performs o now ys (s'', fy)) : s.Performs o now (xs ++ ys) (s'', fx ++ fy) where
  session := h'.session.trans h.session
  beats := by
    rw [h'.beats, h.beats, delaysIn_append, List.map_append, List.append_assoc]
  dials := by
    rw [h'.dials, h.dials, dialsIn_append, List.append_assoc]
  states := by
    rw [published_append, h.states, h'.states, statesIn_append]

theorem performs_performAll (o : Options) (now : Nat) (xs : List SessionAction) :
    ∀ s : Serving, s.Performs o now xs (performAll o now s xs) := by
  induction xs with
  | nil => exact fun s => ⟨rfl, (List.append_nil _).symm, (List.append_nil _).symm, rfl⟩
  | cons x rest ih =>
    intro s
    rw [← List.singleton_append]
    exact (performs_perform o now s x).trans (ih _)

/-- What a step on a connection does beside the link: it hears what is handled, spends a
heartbeat that is due and calls for another, and goes on with attempts or begins some. -/
structure Turn (o : Options) (now : Nat) (s : Serving) (e : ServingEvent)
    (r : Serving × List ServingEffect) : Prop where
  session : r.1.session = (s.handledAt e).foldl Session.told s.session
  states : published r.2 = if (s.handledAt e).any approves then [.authenticated] else []
  beats : r.1.beats = (if e = .beat then s.beats.eraseP (· ≤ now) else s.beats) ++
    if (s.handledAt e).any callsForBeat then [now + s.session.heartbeatDelay] else []
  dials : ∀ d ∈ r.1.dials, (∃ d' ∈ s.dials, d.dataAddr = d'.dataAddr) ∨
    ∃ p, o.proxy = some p ∧ s.session.dataPort ≠ 0 ∧
      d.dataAddr = Address.join p.dataHost s.session.dataPort

theorem turn_of_aside {e : ServingEvent} {r : Serving × List ServingEffect}
    (hhandled : s.handledAt e = []) (he : e ≠ .beat) (hsession : r.1.session = s.session)
    (hbeats : r.1.beats = s.beats) (hdials : r.1.dials = s.dials) (hstates : published r.2 = []) :
    s.Turn o now e r where
  session := by rw [hhandled]; exact hsession
  states := by rw [hhandled]; exact hstates
  beats := by rw [hhandled, if_neg he, hbeats]; exact (List.append_nil _).symm
  dials d hd := .inl ⟨d, hdials ▸ hd, rfl⟩

theorem turn_handle (o : Options) (a : Seal.Aead) (now : Nat) (nonce : Bytes) (s : Serving) :
    s.Turn o now (.handle nonce) (s.handle o a now nonce) := by
  unfold handle
  cases ht : s.link.take? with
  | none =>
    have hnone : s.handledAt (.handle nonce) = [] := by rw [handledAt, ht]; rfl
    exact turn_of_aside hnone (by simp) rfl rfl rfl rfl
  | some taken =>
    obtain ⟨m, l⟩ := taken
    have hone : s.handledAt (.handle nonce) = [m] := by rw [handledAt, ht]; rfl
    have hr := response o a now nonce s.session m
    have hp := performs_performAll o now (s.session.handle o a nonce m).2
      { s with link := l, session := (s.session.handle o a nonce m).1 }
    refine ⟨?_, ?_, ?_, ?_⟩
    · rw [hone]
      exact hp.session.trans hr.session
    · rw [hone]
      refine (hp.states.trans hr.states).trans ?_
      rw [List.any_cons, List.any_nil, Bool.or_false]
    · rw [hone, if_neg (by simp), List.any_cons, List.any_nil, Bool.or_false]
      refine hp.beats.trans ?_
      rw [hr.delays]
      cases callsForBeat m <;> rfl
    · intro d hd
      rw [hp.dials] at hd
      exact (List.mem_append.mp hd).elim (fun h => .inl ⟨d, h, rfl⟩) fun h => .inr (hr.dials d h)

/-- The heartbeat that is spent is the first that is due. -/
theorem erase_eq_eraseP (beats : List Nat) (now : Nat) {due : Nat}
    (h : beats.find? (· ≤ now) = some due) : beats.erase due = beats.eraseP (· ≤ now) := by
  induction beats with
  | nil => cases h
  | cons b rest ih =>
    by_cases hb : b ≤ now
    · rw [List.find?_cons_of_pos (by simpa using hb)] at h
      cases h
      rw [List.erase_cons_head, List.eraseP_cons_of_pos (by simpa using hb)]
    · have hdue := List.find?_some h
      have hne : b ≠ due := by
        rintro rfl
        exact hb (by simpa using hdue)
      rw [List.find?_cons_of_neg (by simpa using hb)] at h
      rw [List.erase_cons_tail (by simpa using hne), List.eraseP_cons_of_neg (by simpa using hb), ih h]

theorem turn_beat (o : Options) (now : Nat) (s : Serving) : s.Turn o now .beat (s.beat now) := by
  unfold beat
  cases hdue : s.beats.find? (· ≤ now) with
  | none =>
    have hnone : s.beats.eraseP (· ≤ now) = s.beats :=
      List.eraseP_of_forall_not (List.find?_eq_none.mp hdue)
    exact ⟨rfl, rfl, by rw [if_pos rfl, hnone]; exact (List.append_nil _).symm,
      fun d hd => .inl ⟨d, hd, rfl⟩⟩
  | some due =>
    have hspent := erase_eq_eraseP s.beats now hdue
    dsimp only
    split
    · exact ⟨rfl, rfl, by rw [if_pos rfl, ← hspent]; exact (List.append_nil _).symm,
        fun d hd => .inl ⟨d, hd, rfl⟩⟩
    · have hp := performs_emit o now { s with beats := s.beats.erase due }
        (.heartbeat (UInt64.ofNat now))
      exact ⟨hp.session, hp.states, by rw [hp.beats, if_pos rfl, ← hspent]; rfl,
        fun d hd => .inl ⟨d, by rw [hp.dials] at hd; simpa [dialsIn] using hd, rfl⟩⟩

theorem dialEffects_aside (attempt : Nat) (session : UInt32) (es : List DialEffect) : ∀ s : Serving,
    (dialEffects attempt session s es).1.session = s.session ∧
      (dialEffects attempt session s es).1.beats = s.beats ∧
      (dialEffects attempt session s es).1.dials = s.dials ∧
      published (dialEffects attempt session s es).2 = [] := by
  induction es with
  | nil => exact fun s => ⟨rfl, rfl, rfl, rfl⟩
  | cons e rest ih =>
    intro s
    have hfirst : (s.dialEffect attempt session e).1.session = s.session ∧
        (s.dialEffect attempt session e).1.beats = s.beats ∧
        (s.dialEffect attempt session e).1.dials = s.dials ∧
        published (s.dialEffect attempt session e).2 = [] := by
      cases e with
      | report success => exact ⟨rfl, rfl, rfl, published_links _⟩
      | dial _ | relay _ | drop _ => exact ⟨rfl, rfl, rfl, rfl⟩
    obtain ⟨hsession, hbeats, hdials, hstates⟩ := ih (s.dialEffect attempt session e).1
    refine ⟨hsession.trans hfirst.1, hbeats.trans hfirst.2.1, hdials.trans hfirst.2.2.1, ?_⟩
    rw [dialEffects, published_append, hfirst.2.2.2]
    exact hstates

theorem turn_dial (o : Options) (now attempt : Nat) (e : DialEvent) (s : Serving) :
    s.Turn o now (.dial attempt e) (s.dial now attempt e) := by
  unfold dial
  cases hd : s.dials[attempt]? with
  | none => exact turn_of_aside rfl (by simp) rfl rfl rfl rfl
  | some d =>
    obtain ⟨hsession, hbeats, hdials, hstates⟩ := dialEffects_aside attempt (d.step now e).1.session
      (d.step now e).2 { s with dials := s.dials.set attempt (d.step now e).1 }
    refine ⟨hsession, hstates, ?_, fun k hk => .inl ?_⟩
    · rw [if_neg (by simp)]
      exact hbeats.trans (List.append_nil _).symm
    · rw [hdials] at hk
      rcases List.mem_or_eq_of_mem_set hk with hk | rfl
      · exact ⟨k, hk, rfl⟩
      · exact ⟨d, List.mem_of_getElem? hd, d.dataAddr_step now e⟩

theorem turn (o : Options) (a : Seal.Aead) (now : Nat) (s : Serving) (e : ServingEvent) :
    s.Turn o now e (s.step o a now e) := by
  cases e with
  | link y => exact turn_of_aside rfl (by simp) rfl rfl rfl (published_links _)
  | handle nonce => exact turn_handle o a now nonce s
  | beat => exact turn_beat o now s
  | dial attempt y => exact turn_dial o now attempt y s

theorem emittedAt_step (o : Options) (a : Seal.Aead) (now : Nat) (s : Serving) (e : ServingEvent)
    (token : String) : .auth token ∉ s.emittedAt o a now e := by
  cases e with
  | link y => exact List.not_mem_nil
  | handle nonce =>
    simp only [emittedAt]
    split
    · exact List.not_mem_nil
    · rename_i m l _
      intro h
      cases (response o a now nonce s.session m).emits _ h
  | beat =>
    simp only [emittedAt]
    split
    · exact List.not_mem_nil
    · split
      · exact List.not_mem_nil
      · exact fun h => by cases List.mem_singleton.mp h
  | dial attempt y =>
    simp only [emittedAt]
    split
    · exact List.not_mem_nil
    · intro h
      obtain ⟨x, -, hx⟩ := List.mem_filterMap.mp h
      cases x <;> cases hx

/-! ## At every moment -/

section Moments

variable (course : Course (stepAt o a) (start o now).1)

theorem handledBefore_grows {i j : Nat} (hij : i ≤ j) :
    handledBefore course i <+: handledBefore course j := by
  induction hij with
  | refl => exact List.prefix_rfl
  | step _ ih => exact ih.trans (List.prefix_append _ _)

/-- On a connection a client knows what it was told there, and nothing else. -/
theorem session_eq_known (n : Nat) :
    (course.state n).session = known o (handledBefore course n) := by
  induction n with
  | zero => rfl
  | succ n ih =>
    have hturn := turn o a (course.happens n).1 (course.state n) (course.happens n).2
    rw [handledBefore, known, List.foldl_append]
    exact hturn.session.trans (congrArg (List.foldl Session.told · _) ih)

/-- The first message that a client emits is its token, and no later one is. -/
theorem introduces_itself_once (n : Nat) : ∃ later,
    emittedBefore course n = .auth o.authToken :: later ∧ ∀ token, .auth token ∉ later := by
  induction n with
  | zero => exact ⟨[], rfl, fun _ => List.not_mem_nil⟩
  | succ n ih =>
    obtain ⟨later, hemitted, hlater⟩ := ih
    refine ⟨later ++ (course.state n).emittedAt o a (course.happens n).1 (course.happens n).2, ?_,
      fun token h => ?_⟩
    · rw [emittedBefore, hemitted, List.cons_append]
    · exact (List.mem_append.mp h).elim (hlater token) (emittedAt_step o a _ _ _ token)

/-- What a client does with a cadence or a port: heartbeats are due after the delay and
attempts dial the port that were known on this connection when they were called for. -/
structure Uses (o : Options) (handled : List Message) (s : Serving) : Prop where
  beats : ∀ due ∈ s.beats, ∃ heard time, heard <+: handled ∧
    due = time + (known o heard).heartbeatDelay
  dials : ∀ d ∈ s.dials, ∃ heard p, heard <+: handled ∧ o.proxy = some p ∧
    (known o heard).dataPort ≠ 0 ∧ d.dataAddr = Address.join p.dataHost (known o heard).dataPort

theorem used_what_was_known (n : Nat) : Uses o (handledBefore course n) (course.state n) := by
  induction n with
  | zero => exact ⟨nofun, nofun⟩
  | succ n ih =>
    have hturn := turn o a (course.happens n).1 (course.state n) (course.happens n).2
    have hearlier := handledBefore_grows course (Nat.le_succ n)
    constructor
    · intro due hdue
      rcases List.mem_append.mp (hturn.beats ▸ hdue) with hold | hnew
      · have hbefore : due ∈ (course.state n).beats := by
          split at hold
          · exact List.mem_of_mem_eraseP hold
          · exact hold
        obtain ⟨heard, time, hheard, heq⟩ := ih.beats due hbefore
        exact ⟨heard, time, hheard.trans hearlier, heq⟩
      · split at hnew
        · refine ⟨_, (course.happens n).1, hearlier, ?_⟩
          rw [List.mem_singleton.mp hnew, session_eq_known]
        · cases hnew
    · intro d hd
      rcases hturn.dials d hd with ⟨d', hd', haddr⟩ | ⟨p, hp, hport, haddr⟩
      · obtain ⟨heard, p, hheard, hp, hport, heq⟩ := ih.dials d' hd'
        exact ⟨heard, p, hheard.trans hearlier, hp, hport, haddr.trans heq⟩
      · rw [session_eq_known] at hport haddr
        exact ⟨_, p, hearlier, hp, hport, haddr⟩

end Moments

end Serving

end ReverseTunnel.Client

import ReverseTunnel.Proofs.Client.AttemptLife
import ReverseTunnel.Proofs.Client.Attempts
import ReverseTunnel.Proofs.Client.Heartbeats

/-!
What a client does about the sessions that are announced to it on a control connection.

What is proved (`answers_announcements`):
1. A session that is announced while no proxy is configured, or no port for data connections is
   granted, is passed over.
2. For every other one (`Asked`) the client begins one attempt to dial back, to the port that was
   granted last. From then on the attempt leads a life of its own, whatever happens on the
   connection and to the other attempts (`lifeOf`, `dials_lifeOf`).
3. Every answer that is emitted is the report of the attempt for exactly one of these
   announcements, for nothing else that a client emits is one (`asked_of_ack`).

What is assumed: only for each stage of an attempt that succeeds to come within the dial timeout,
that no event of the attempt comes after its deadline (`DialBack.Punctual`).

What is not said: when an attempt reports, and whether the server gets to read it.
-/

namespace ReverseTunnel.Client

open Control
open Wire (Message)

variable {o : Options} {a : Seal.Aead} {now k : Nat} {session : UInt32} {p : ProxyOptions}

/-! ## The port in force -/

/-- The port for data connections that a message grants. -/
def grantedPort? : Message → Option UInt16
  | .openDataPortAck true _ _ port => some port
  | _ => none

/-- The port that was granted last, or 0 as long as none was. -/
def latestPort (ms : List Message) : UInt16 := ((ms.filterMap grantedPort?).getLast?).getD 0

theorem latestPort_snoc (ms : List Message) (m : Message) :
    latestPort (ms ++ [m]) = (grantedPort? m).getD (latestPort ms) := by
  rw [latestPort, List.filterMap_append]
  cases hm : grantedPort? m with
  | none => simp [hm, latestPort]
  | some port => simp [hm]

theorem dataPort_eq (o : Options) (ms : List Message) : (known o ms).dataPort = latestPort ms := by
  induction ms using List.reverseRecOn with
  | nil => rfl
  | append_singleton ms m ih =>
    rw [known_snoc, latestPort_snoc, ← ih]
    cases m with
    | openDataPortAck success message delay port => cases success <;> rfl
    | _ => rfl

/-! ## What is done for an attempt -/

/-- What an event does to the attempt of that number. -/
def ServingEvent.dial? (k : Nat) : ServingEvent → Option DialEvent
  | .dial n e => if n = k then some e else none
  | _ => none

theorem ServingEvent.eq_of_dial? {e : ServingEvent} {y : DialEvent} (h : e.dial? k = some y) :
    e = .dial k y := by
  cases e with
  | dial n y' =>
    rw [dial?] at h
    split at h
    · rename_i hn
      cases h
      rw [hn]
    · cases h
  | _ => cases h

/-- What an effect is of the attempt of that number. -/
def ServingEffect.dial? (k : Nat) : ServingEffect → Option DialEffect
  | .dial n e => if n = k then some e else none
  | _ => none

/-- What the attempt of that number does to the world around it. -/
def doneBy (k : Nat) (fx : List ServingEffect) : List DialEffect := fx.filterMap (·.dial? k)

theorem doneBy_append (k : Nat) (fx fy : List ServingEffect) :
    doneBy k (fx ++ fy) = doneBy k fx ++ doneBy k fy := List.filterMap_append

theorem doneBy_links (k : Nat) (ls : List LinkEffect) : doneBy k (ls.map .link) = [] := by
  rw [doneBy, List.filterMap_map]
  exact List.filterMap_eq_nil_iff.mpr fun _ _ => rfl

/-- A report goes to the server, and not to the world around. -/
def DialEffect.isReport : DialEffect → Bool
  | .report _ => true
  | _ => false

namespace Serving

variable {s : Serving} {d : DialBack} {e : ServingEvent}

theorem doneBy_dialEffects (n : Nat) (es : List DialEffect) : ∀ s : Serving,
    doneBy k (dialEffects n session s es).2 = if n = k then es.filter (!·.isReport) else [] := by
  induction es with
  | nil => exact fun _ => by split <;> rfl
  | cons e rest ih =>
    intro s
    have hfirst : doneBy k (s.dialEffect n session e).2 =
        if n = k then [e].filter (!·.isReport) else [] := by
      cases e with
      | report success =>
        refine (doneBy_links k _).trans ?_
        split <;> rfl
      | dial _ | relay _ | drop _ =>
        show [ServingEffect.dial n _].filterMap _ = _
        by_cases hn : n = k <;> simp [ServingEffect.dial?, hn, DialEffect.isReport]
    rw [dialEffects, doneBy_append, hfirst, ih]
    split
    · rw [← List.filter_append, List.singleton_append]
    · rfl

theorem doneBy_performAll (o : Options) (now : Nat) (xs : List SessionAction)
    (hxs : ∀ session dataAddr localAddr, .dialBack session dataAddr localAddr ∉ xs) : ∀ s : Serving,
    doneBy k (performAll o now s xs).2 = [] := by
  induction xs with
  | nil => exact fun _ => rfl
  | cons x rest ih =>
    intro s
    have hfirst : doneBy k (s.perform o now x).2 = [] := by
      cases x with
      | emit m => exact doneBy_links k _
      | publish _ | beatAfter _ => rfl
      | dialBack session dataAddr localAddr => exact absurd List.mem_cons_self (hxs _ _ _)
    rw [performAll, doneBy_append, hfirst,
      ih fun _ _ _ hmem => hxs _ _ _ (List.mem_cons_of_mem _ hmem)]
    rfl

/-! ## What an announcement comes to -/

theorem handle_of_handledAt {m : Message} (h : s.handledAt e = [m]) :
    ∃ nonce l, e = .handle nonce ∧ s.link.take? = some (m, l) := by
  cases e with
  | handle nonce =>
    rw [handledAt] at h
    cases ht : s.link.take? with
    | none =>
      rw [ht] at h
      cases h
    | some taken =>
      rw [ht] at h
      cases h
      exact ⟨nonce, taken.2, rfl, rfl⟩
  | _ => cases h

/-- An announcement is passed over as long as there is no proxy or no port. -/
theorem step_of_unready (a : Seal.Aead) (now : Nat) (h : s.handledAt e = [.openDataConn session])
    (hno : o.proxy = none ∨ s.session.dataPort = 0) :
    (s.step o a now e).1.dials = s.dials ∧ (s.step o a now e).2 = [] ∧ s.emittedAt o a now e = [] := by
  obtain ⟨nonce, l, rfl, ht⟩ := handle_of_handledAt h
  have hpassed : s.session.handle o a nonce (.openDataConn session) = (s.session, []) := by
    simp only [Session.handle]
    rcases hno with hproxy | hport
    · rw [hproxy]
    · rw [hport]
      split <;> rfl
  have hstep : s.step o a now (.handle nonce) = ({ s with link := l }, []) := by
    simp only [step, handle, ht, hpassed, performAll]
  have hemitted : s.emittedAt o a now (.handle nonce) = [] := by
    simp only [emittedAt, ht, hpassed]
    rfl
  rw [hstep]
  exact ⟨rfl, rfl, hemitted⟩

theorem step_of_ready (a : Seal.Aead) (now : Nat) (h : s.handledAt e = [.openDataConn session])
    (hp : o.proxy = some p) (hport : s.session.dataPort ≠ 0) :
    (s.step o a now e).1.dials = s.dials ++ [(DialBack.start session
        (Address.join p.dataHost s.session.dataPort) p.localAddr o.dialTimeout now).1] ∧
      (s.step o a now e).2 =
        [.dial s.dials.length (.dial (Address.join p.dataHost s.session.dataPort))] ∧
      s.emittedAt o a now e = [] := by
  obtain ⟨nonce, l, rfl, ht⟩ := handle_of_handledAt h
  have hbegins : s.session.handle o a nonce (.openDataConn session) = (s.session,
      [.dialBack session (Address.join p.dataHost s.session.dataPort) p.localAddr]) := by
    simp only [Session.handle, hp, if_neg hport]
  have hemitted : s.emittedAt o a now (.handle nonce) = [] := by
    simp only [emittedAt, ht, hbegins]
    rfl
  refine ⟨?_, ?_, hemitted⟩
  · simp only [step, handle, ht, hbegins, performAll, perform]
  · simp only [step, handle, ht, hbegins, performAll, perform]
    rfl

/-- What happens to no attempt begins one for an announcement that is not passed over, or
nothing changes about any. -/
theorem step_of_other (o : Options) (a : Seal.Aead) (now : Nat) (s : Serving) {e : ServingEvent}
    (he : e.attempt? = none) :
    (∃ session p, s.handledAt e = [.openDataConn session] ∧ o.proxy = some p ∧
        s.session.dataPort ≠ 0) ∨
      ((s.step o a now e).1.dials = s.dials ∧ ∀ k, doneBy k (s.step o a now e).2 = []) := by
  cases e with
  | dial _ _ => cases he
  | link y => exact .inr ⟨rfl, fun k => doneBy_links k _⟩
  | beat =>
    right
    rw [step, beat]
    split
    · exact ⟨rfl, fun _ => rfl⟩
    · dsimp only
      split
      · exact ⟨rfl, fun _ => rfl⟩
      · exact ⟨rfl, fun k => doneBy_links k _⟩
  | handle nonce =>
    rw [step, handle, handledAt]
    cases ht : s.link.take? with
    | none => exact .inr ⟨rfl, fun _ => rfl⟩
    | some taken =>
      obtain ⟨m, l⟩ := taken
      have hresponds := responds o a nonce s.session m
      -- only an announcement that is answered begins an attempt
      have hother {r : Session × List SessionAction}
          (hno : ∀ session dataAddr localAddr, .dialBack session dataAddr localAddr ∉ r.2) :
          (performAll o now { s with link := l, session := r.1 } r.2).1.dials = s.dials ∧
            ∀ k, doneBy k (performAll o now { s with link := l, session := r.1 } r.2).2 = [] := by
        have hnone : dialsIn o now r.2 = [] := List.filterMap_eq_nil_iff.mpr fun x hx => by
          cases x with
          | dialBack session dataAddr localAddr => exact absurd hx (hno _ _ _)
          | _ => rfl
        refine ⟨?_, fun k => doneBy_performAll o now r.2 hno _⟩
        rw [(performs_performAll o now r.2 _).dials, hnone, List.append_nil]
      dsimp only
      generalize s.session.handle o a nonce m = r at hresponds
      cases hresponds with
      | called session p hp hport => exact .inl ⟨session, p, rfl, hp, hport⟩
      | acknowledged | provisioned | passedOver => exact .inr (hother (by simp))
      | approved message =>
        refine .inr (hother fun session dataAddr localAddr hmem => ?_)
        simp only [List.mem_cons, reduceCtorEq, false_or, Session.portRequest] at hmem
        split at hmem <;> simp at hmem

theorem dials_of_other (o : Options) (a : Seal.Aead) (now : Nat) (hd : s.dials[k]? = some d)
    (he : e.attempt? = none) :
    (s.step o a now e).1.dials[k]? = some d ∧ doneBy k (s.step o a now e).2 = [] := by
  have hlt : k < s.dials.length := (List.getElem?_eq_some_iff.mp hd).1
  rcases step_of_other o a now s he with ⟨session, p, hhandled, hp, hport⟩ | ⟨hdials, hdone⟩
  · obtain ⟨hdials, heffects, -⟩ := step_of_ready a now hhandled hp hport
    rw [hdials, List.getElem?_append_left hlt, heffects]
    have hne : s.dials.length ≠ k := Nat.ne_of_gt hlt
    exact ⟨hd, by simp [doneBy, ServingEffect.dial?, hne]⟩
  · rw [hdials, hdone]
    exact ⟨hd, rfl⟩

theorem announced_of_new {o : Options} {a : Seal.Aead} {now : Nat}
    (h : s.dials.length < (s.step o a now e).1.dials.length) :
    ∃ session p, s.handledAt e = [.openDataConn session] ∧ o.proxy = some p ∧
      s.session.dataPort ≠ 0 := by
  by_cases he : e.attempt? = none
  · rcases step_of_other o a now s he with hannounced | ⟨hdials, -⟩
    · exact hannounced
    · rw [hdials] at h
      exact absurd h (Nat.lt_irrefl _)
  · cases e with
    | dial n y =>
      change s.dials.length < (s.dial now n y).1.dials.length at h
      cases hd : s.dials[n]? with
      | none =>
        rw [dial_of_none now y hd] at h
        exact absurd h (Nat.lt_irrefl _)
      | some d =>
        rw [(dial_of_some now y hd).1, List.length_set] at h
        exact absurd h (Nat.lt_irrefl _)
    | _ => exact absurd rfl he

/-- Only an attempt makes a client answer, with its report. -/
theorem dial_of_ack {success : Bool}
    (h : .openDataConnAck session success ∈ s.emittedAt o a now e) :
    ∃ k y d, e = .dial k y ∧ s.dials[k]? = some d ∧ d.session = session ∧
      .report success ∈ (d.step now y).2 := by
  cases e with
  | link y => cases h
  | beat =>
    simp only [emittedAt] at h
    split at h
    · cases h
    · split at h
      · cases h
      · cases List.mem_singleton.mp h
  | handle nonce =>
    simp only [emittedAt] at h
    split at h
    · cases h
    · rename_i m l _
      cases (response o a now nonce s.session m).emits _ h
  | dial k y =>
    simp only [emittedAt] at h
    split at h
    · cases h
    · rename_i d hd
      obtain ⟨x, hx, hm⟩ := List.mem_filterMap.mp h
      cases x with
      | report success' =>
        cases hm
        exact ⟨k, y, d, rfl, hd, (d.session_step now y).symm, hx⟩
      | dial _ | relay _ | drop _ => cases hm

/-- What happens to an attempt on a connection happens to it by itself, and all else is nothing
to it. -/
theorem step_of_dials (o : Options) (a : Seal.Aead) (now : Nat) (e : ServingEvent)
    (hd : s.dials[k]? = some d) :
    (s.step o a now e).1.dials[k]? = some (d.step now ((e.dial? k).getD DialBack.idle)).1 ∧
      doneBy k (s.step o a now e).2 =
        (d.step now ((e.dial? k).getD DialBack.idle)).2.filter (!·.isReport) := by
  have hlt : k < s.dials.length := (List.getElem?_eq_some_iff.mp hd).1
  have hidle : (d.step now DialBack.idle) = (d, []) := d.step_idle now
  cases e with
  | dial n y =>
    show (s.dial now n y).1.dials[k]? = _ ∧ doneBy k (s.dial now n y).2 = _
    by_cases hn : n = k
    · subst hn
      have hthis : ((ServingEvent.dial n y).dial? n).getD DialBack.idle = y := by
        simp [ServingEvent.dial?]
      rw [hthis, (dial_of_some now y hd).1, List.getElem?_set_self hlt]
      refine ⟨rfl, ?_⟩
      rw [dial, hd]
      exact (doneBy_dialEffects n _ _).trans (if_pos rfl)
    · have hother : ((ServingEvent.dial n y).dial? k).getD DialBack.idle = DialBack.idle := by
        simp [ServingEvent.dial?, hn]
      rw [hother, hidle]
      cases hdn : s.dials[n]? with
      | none =>
        rw [dial_of_none now y hdn]
        exact ⟨hd, rfl⟩
      | some d' =>
        rw [(dial_of_some now y hdn).1, List.getElem?_set_ne hn]
        refine ⟨hd, ?_⟩
        rw [dial, hdn]
        exact (doneBy_dialEffects n _ _).trans (if_neg hn)
  | link _ | handle _ | beat =>
    show _ = some (d.step now DialBack.idle).1 ∧ _ = (d.step now DialBack.idle).2.filter _
    rw [hidle]
    exact dials_of_other o a now hd rfl

/-! ## At every moment -/

section Moments

variable (course : Course (stepAt o a) (start o now).1) {m n i : Nat}

/-- A session is announced at a moment, and there are a proxy and a port for it. -/
structure Asked (n : Nat) (session : UInt32) (p : ProxyOptions) : Prop where
  handled : (course.state n).handledAt (course.happens n).2 = [.openDataConn session]
  proxy : o.proxy = some p
  port : latestPort (handledBefore course n) ≠ 0

/-- The data proxy as it is known at a moment. -/
def dataAddrAt (p : ProxyOptions) (n : Nat) : String :=
  Address.join p.dataHost (latestPort (handledBefore course n))

/-- The number of the attempt that begins at a moment. -/
def numberAt (n : Nat) : Nat := (course.state n).dials.length

/-- What happens to the attempt that begins at a moment, with every event from then on. -/
def lifeOf (n : Nat) (session : UInt32) (p : ProxyOptions) : DialBack.Life session
    (dataAddrAt course p n) p.localAddr o.dialTimeout (course.happens n).1 :=
  ⟨fun i => ((course.happens (n + 1 + i)).1,
    ((course.happens (n + 1 + i)).2.dial? (numberAt course n)).getD DialBack.idle)⟩

variable {course}

theorem begins_of_asked (h : Asked course n session p) :
    (course.state (n + 1)).dials = (course.state n).dials ++
        [(DialBack.start session (dataAddrAt course p n) p.localAddr o.dialTimeout
          (course.happens n).1).1] ∧
      course.effectsAt n = [.dial (numberAt course n) (.dial (dataAddrAt course p n))] ∧
      (course.state n).emittedAt o a (course.happens n).1 (course.happens n).2 = [] := by
  have hport := dataPort_eq o (handledBefore course n)
  rw [← session_eq_known] at hport
  have hready : (course.state n).session.dataPort ≠ 0 := hport ▸ h.port
  obtain ⟨hdials, heffects, hemitted⟩ := step_of_ready a (course.happens n).1 h.handled h.proxy hready
  rw [hport] at hdials heffects
  exact ⟨hdials, heffects, hemitted⟩

/-- An attempt is, from the moment on at which it begins, where its own life is. -/
theorem dials_lifeOf (h : Asked course n session p) (i : Nat) :
    (course.state (n + 1 + i)).dials[numberAt course n]? = some ((lifeOf course n session p).state i) := by
  induction i with
  | zero =>
    rw [Nat.add_zero, (begins_of_asked h).1, numberAt, List.getElem?_concat_length]
    rfl
  | succ i ih =>
    exact (step_of_dials o a (course.happens (n + 1 + i)).1 (course.happens (n + 1 + i)).2 ih).1

theorem doneBy_lifeOf (h : Asked course n session p) (i : Nat) :
    doneBy (numberAt course n) (course.effectsAt (n + 1 + i)) =
      ((lifeOf course n session p).effectsAt i).filter (!·.isReport) :=
  (step_of_dials o a (course.happens (n + 1 + i)).1 (course.happens (n + 1 + i)).2
    (dials_lifeOf h i)).2

/-- An answer is given at a moment: it is emitted, and gets into the queue if the connection
accepts it. -/
structure Answers (course : Course (stepAt o a) (start o now).1) (n : Nat) (session : UInt32)
    (success : Bool) : Prop where
  emitted : (course.state n).emittedAt o a (course.happens n).1 (course.happens n).2 =
    [.openDataConnAck session success]
  queued : (course.state n).link.accepts = true → (course.state (n + 1)).link.outbox =
    (course.state n).link.outbox ++ [.openDataConnAck session success]
  lost : (course.state n).link.accepts = false →
    (course.state (n + 1)).link.outbox = (course.state n).link.outbox

theorem event_of_report {success : Bool}
    (hreport : .report success ∈ (lifeOf course n session p).effectsAt i) :
    ∃ y, (course.happens (n + 1 + i)).2 = .dial (numberAt course n) y := by
  cases hy : (course.happens (n + 1 + i)).2.dial? (numberAt course n) with
  | some y => exact ⟨y, ServingEvent.eq_of_dial? hy⟩
  | none =>
    change _ ∈ (DialBack.step _ _ (((course.happens (n + 1 + i)).2.dial? (numberAt course n)).getD
      DialBack.idle)).2 at hreport
    rw [hy, Option.getD_none, DialBack.step_idle] at hreport
    cases hreport

theorem effectsAt_lifeOf {y : DialEvent}
    (hevent : (course.happens (n + 1 + i)).2 = .dial (numberAt course n) y) :
    (lifeOf course n session p).effectsAt i =
      (((lifeOf course n session p).state i).step (course.happens (n + 1 + i)).1 y).2 := by
  show (DialBack.step _ _ (((course.happens (n + 1 + i)).2.dial? (numberAt course n)).getD
    DialBack.idle)).2 = _
  rw [hevent, ServingEvent.dial?, if_pos rfl, Option.getD_some]
  rfl

/-- What an attempt reports is the answer to the announcement for which it began. -/
theorem answers_of_report (h : Asked course n session p) {success : Bool}
    (hreport : .report success ∈ (lifeOf course n session p).effectsAt i) :
    Answers course (n + 1 + i) session success := by
  have hd := dials_lifeOf h i
  obtain ⟨hsession, -, -⟩ := DialBack.own_fields (lifeOf course n session p) i
  obtain ⟨data, heffects⟩ := DialBack.effectsAt_of_report hreport
  obtain ⟨y, hevent⟩ := event_of_report hreport
  rw [effectsAt_lifeOf hevent] at heffects
  have hemitted : (course.state (n + 1 + i)).emittedAt o a (course.happens (n + 1 + i)).1
      (course.happens (n + 1 + i)).2 = [.openDataConnAck session success] := by
    rw [hevent]
    simp only [emittedAt, hd, heffects, DialBack.session_step, hsession, reportedBy,
      List.filterMap_append, List.filterMap_map]
    simp
  have hlink : (course.state (n + 1 + i + 1)).link =
      (course.state (n + 1 + i)).link.emitted (.openDataConnAck session success) := by
    have hemits := emits_dial o a (course.happens (n + 1 + i)).1 (numberAt course n) y
      (course.state (n + 1 + i))
    rw [← hevent, hemitted] at hemits
    rw [Course.state_succ (e := ((course.happens (n + 1 + i)).1, .dial (numberAt course n) y))
      (Prod.ext rfl hevent)]
    exact hemits.link
  refine ⟨hemitted, fun haccepts => ?_, fun hrefuses => ?_⟩
  · rw [hlink, Link.emitted_of_accepts haccepts]
  · rw [hlink, Link.emitted_of_refuses hrefuses]
    rfl

/-! ## One to one -/

theorem length_dials_le (o : Options) (a : Seal.Aead) (now : Nat) (s : Serving) (e : ServingEvent) :
    s.dials.length ≤ (s.step o a now e).1.dials.length := by
  by_contra hlt
  have hlt := Nat.lt_of_not_le hlt
  have hstill := (step_of_dials o a now e (List.getElem?_eq_getElem hlt)).1
  rw [List.getElem?_eq_none (Nat.le_refl _)] at hstill
  cases hstill

theorem numberAt_le {m n : Nat} (hmn : m ≤ n) : numberAt course m ≤ numberAt course n := by
  induction hmn with
  | refl => exact Nat.le_refl _
  | step _ ih => exact Nat.le_trans ih (length_dials_le o a _ _ _)

theorem eq_of_numberAt {session' : UInt32} {p' : ProxyOptions} (hm : Asked course m session p)
    (hn : Asked course n session' p') (heq : numberAt course m = numberAt course n) : m = n := by
  have hlater {m n : Nat} {session : UInt32} {p : ProxyOptions}
      (hm : Asked course m session p) (heq : numberAt course m = numberAt course n) : n ≤ m := by
    by_contra hmn
    have hle : numberAt course (m + 1) ≤ numberAt course n := numberAt_le (Nat.lt_of_not_le hmn)
    have hnext := congrArg List.length (begins_of_asked hm).1
    rw [List.length_append, List.length_singleton] at hnext
    change numberAt course (m + 1) = numberAt course m + 1 at hnext
    omega
  exact Nat.le_antisymm (hlater hn heq.symm) (hlater hm heq)

theorem asked_of_dials {d : DialBack} (hd : (course.state n).dials[k]? = some d) :
    ∃ m i session p, n = m + 1 + i ∧ Asked course m session p ∧ numberAt course m = k := by
  induction n generalizing d with
  | zero => cases hd
  | succ n ih =>
    cases hbefore : (course.state n).dials[k]? with
    | some d' =>
      obtain ⟨m, i, session, p, rfl, hasked, hk⟩ := ih hbefore
      exact ⟨m, i + 1, session, p, rfl, hasked, hk⟩
    | none =>
      have hge : (course.state n).dials.length ≤ k := List.getElem?_eq_none_iff.mp hbefore
      have hlt : k < (course.state (n + 1)).dials.length := (List.getElem?_eq_some_iff.mp hd).1
      -- the attempt is new, and so it began with the last event
      obtain ⟨session, p, hhandled, hp, hport⟩ := announced_of_new (Nat.lt_of_le_of_lt hge hlt)
      rw [session_eq_known, dataPort_eq] at hport
      have hasked : Asked course n session p := ⟨hhandled, hp, hport⟩
      rw [(begins_of_asked hasked).1, List.length_append, List.length_singleton] at hlt
      refine ⟨n, 0, session, p, rfl, hasked, ?_⟩
      rw [numberAt]
      omega

/-- An answer is given only by an attempt, and so to one announcement. -/
theorem asked_of_ack {success : Bool} (hack : .openDataConnAck session success ∈
    (course.state m).emittedAt o a (course.happens m).1 (course.happens m).2) :
    ∃! n, ∃ p i, m = n + 1 + i ∧ Asked course n session p ∧
      .report success ∈ (lifeOf course n session p).effectsAt i := by
  obtain ⟨k, y, d, hevent, hd, hd', hreport⟩ := dial_of_ack hack
  obtain ⟨n, i, session', p, rfl, hasked, rfl⟩ := asked_of_dials hd
  have hlife := dials_lifeOf hasked i
  rw [hd, Option.some.injEq] at hlife
  obtain ⟨hsession, -, -⟩ := DialBack.own_fields (lifeOf course n session' p) i
  obtain rfl : session' = session := by rw [← hsession, ← hlife, hd']
  refine ⟨n, ⟨p, i, rfl, hasked, ?_⟩, ?_⟩
  · rw [effectsAt_lifeOf hevent, ← hlife]
    exact hreport
  · rintro n' ⟨p', i', hm, hasked', hreport'⟩
    obtain ⟨y', hevent'⟩ := event_of_report hreport'
    rw [← hm, hevent, ServingEvent.dial.injEq] at hevent'
    exact (eq_of_numberAt hasked hasked' hevent'.1).symm

/-! ## All together -/

/-- An announcement is passed over: no attempt begins, nothing is dialed, nothing is emitted. -/
structure PassesOver (course : Course (stepAt o a) (start o now).1) (n : Nat) : Prop where
  dials : (course.state (n + 1)).dials = (course.state n).dials
  effects : course.effectsAt n = []
  silent : (course.state n).emittedAt o a (course.happens n).1 (course.happens n).2 = []

/-- What comes of an announcement that is not passed over. -/
structure DialsBack (course : Course (stepAt o a) (start o now).1) (n : Nat) (session : UInt32)
    (p : ProxyOptions) : Prop where
  /-- The port that was granted last is dialed, and nothing else is done. -/
  begins : course.effectsAt n = [.dial (numberAt course n) (.dial (dataAddrAt course p n))]
  silent : (course.state n).emittedAt o a (course.happens n).1 (course.happens n).2 = []
  /-- From then on the attempt leads its own life. -/
  lives : ∀ i, (course.state (n + 1 + i)).dials[numberAt course n]? =
    some ((lifeOf course n session p).state i)
  does : ∀ i, doneBy (numberAt course n) (course.effectsAt (n + 1 + i)) =
    ((lifeOf course n session p).effectsAt i).filter (!·.isReport)
  /-- All that it does, in order. -/
  goes : ∀ i, ∃ verdict,
    Goes session (dataAddrAt course p n) p.localAddr verdict (DialBack.done (lifeOf course n session p) i) ∧
      verdict.isSome = ((lifeOf course n session p).state i).stage.concluded
  /-- The backend is dialed when the echo is there, and at no other moment. -/
  calls : ∀ i addr, .dial addr ∈ (lifeOf course n session p).effectsAt i ↔
    addr = p.localAddr ∧
      ∃ key b j, i = b + 1 + j ∧ DialBack.Echoes (lifeOf course n session p) key b j
  /-- What is reported is decided by what happened. -/
  reports : ∀ i success, .report success ∈ (lifeOf course n session p).effectsAt i ↔
    DialBack.Concludes (lifeOf course n session p) i success
  onTime : DialBack.Punctual (lifeOf course n session p) → ∀ key b i j,
    DialBack.Calls (lifeOf course n session p) key b i j →
      (course.happens (n + 1 + b)).1 ≤ (course.happens n).1 + o.dialTimeout ∧
      (course.happens (n + 1 + (b + 1 + i))).1 ≤ (course.happens (n + 1 + b)).1 + o.dialTimeout ∧
      (course.happens (n + 1 + (b + 1 + i + 1 + j))).1 ≤
        (course.happens (n + 1 + (b + 1 + i))).1 + o.dialTimeout
  /-- An attempt that has come to its end has reported, and it reports once. -/
  ends : ∀ i, ((lifeOf course n session p).state i).stage.concluded = true →
    ∃ j success, j < i ∧ .report success ∈ (lifeOf course n session p).effectsAt j
  once : ∀ i j success success', .report success ∈ (lifeOf course n session p).effectsAt i →
    .report success' ∈ (lifeOf course n session p).effectsAt j → i = j ∧ success = success'
  /-- Its report is the answer. -/
  answers : ∀ i success, .report success ∈ (lifeOf course n session p).effectsAt i →
    Answers course (n + 1 + i) session success

theorem dialsBack_of_asked (h : Asked course n session p) : DialsBack course n session p where
  begins := (begins_of_asked h).2.1
  silent := (begins_of_asked h).2.2
  lives := dials_lifeOf h
  does := doneBy_lifeOf h
  goes := DialBack.goes _
  calls _ _ := DialBack.dials_iff
  reports _ _ := DialBack.reports_iff
  onTime hpunctual _ _ _ _ hcalls := hcalls.on_time hpunctual
  ends _ := DialBack.report_of_concluded
  once _ _ _ _ := DialBack.reports_once
  answers _ _ := answers_of_report h

/-- On every control connection, whatever the server says on it and whatever becomes of the
connections that are dialed: an announcement that is handled while there is no proxy or no port
is passed over, every other one begins one attempt to dial back, and the answers of the client
are the reports of these attempts, one for each that comes to an end. -/
theorem answers_announcements (course : Course (stepAt o a) (start o now).1) :
    (∀ n session, (course.state n).handledAt (course.happens n).2 = [.openDataConn session] →
      o.proxy = none ∨ latestPort (handledBefore course n) = 0 → PassesOver course n) ∧
    (∀ n session p, Asked course n session p → DialsBack course n session p) ∧
    ∀ m session success, .openDataConnAck session success ∈
        (course.state m).emittedAt o a (course.happens m).1 (course.happens m).2 →
      ∃! n, ∃ p i, m = n + 1 + i ∧ Asked course n session p ∧
        .report success ∈ (lifeOf course n session p).effectsAt i := by
  refine ⟨fun n session hhandled hno => ?_, fun n session p => dialsBack_of_asked,
    fun m session success => asked_of_ack⟩
  rw [← dataPort_eq o, ← session_eq_known] at hno
  obtain ⟨hdials, heffects, hsilent⟩ := step_of_unready a (course.happens n).1 hhandled hno
  exact ⟨hdials, heffects, hsilent⟩

end Moments

/-- A local backend that is exposed. -/
def exposed : ProxyOptions where
  name := "web"
  localAddr := "localhost:80"
  remoteHost := none
  remotePort := 0
  secret := "s"
  key := ""
  dataHost := "tunnel"

def exposingOptions : Options where
  serverAddr := "tunnel:1"
  authToken := "token"
  minReconnectDelay := 1
  maxReconnectDelay := 2
  heartbeatDelay := 10
  dialTimeout := 5
  proxy := some exposed

/-- A session is announced before a port is granted and another one after that, and the second
is dialed back and reaches the backend. -/
def announcesTwice : Course (stepAt exposingOptions Seal.aes256Gcm) (start exposingOptions 0).1 :=
  .of [(0, .link (.receive (Wire.bytesOf
      [.openDataConn 3, .openDataPortAck true "" 0 7, .openDataConn 5]))),
    (0, .link .read), (0, .link .read), (0, .link .read),
    (1, .handle []), (1, .handle []), (1, .handle []),
    (2, .dial 0 (.accepted 1)), (3, .dial 0 (.receive 1 (.bytes (Session.Handshake.encode 5)))),
    (3, .dial 0 .look), (4, .dial 0 (.accepted 2))] (9, .beat)

theorem answers_announcements_announcesTwice :
    PassesOver announcesTwice 4 ∧ announcesTwice.effectsAt 6 = [.dial 0 (.dial "tunnel:7")] ∧
      Answers announcesTwice 10 5 true := by
  obtain ⟨hpasses, hdials, -⟩ := answers_announcements announcesTwice
  have hasked : Asked announcesTwice 6 5 exposed := ⟨by decide +kernel, rfl, by decide +kernel⟩
  have hdialed := (hdials 6 5 exposed hasked).begins
  have hnumber : numberAt announcesTwice 6 = 0 := by decide +kernel
  have haddr : dataAddrAt announcesTwice exposed 6 = "tunnel:7" := by decide +kernel
  rw [hnumber, haddr] at hdialed
  exact ⟨hpasses 4 3 (by decide +kernel) (.inr (by decide +kernel)), hdialed,
    (hdials 6 5 exposed hasked).answers 3 true (by decide +kernel)⟩

end Serving

end ReverseTunnel.Client

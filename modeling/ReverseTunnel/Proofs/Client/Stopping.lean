import ReverseTunnel.Proofs.Client.Standing
import ReverseTunnel.Proofs.Control.Dispatch

/-!
How a client stops.

A client that is shut down does not connect or rest again (`turns`), so that each of its steps
brings it nearer to its end or leaves it as far from it as it was (`Turns.toDo`). If all that it
waits for comes at last (`Unhindered`), it stops, and from then on it is disconnected for good
and publishes nothing more (`stopped_for_good`).
-/

namespace ReverseTunnel.Client

open Control
open Control.Service (stagesLeft stagesLeft_move)

variable {o : Options} {a : Seal.Aead} {now : Nat} {s : Serving} {y : ServingEvent}

/-! ## On a connection -/

section Links

variable {l l' : Link}

/-- What is to be done on a link until it is finished. What is read as long as the reader was
not told to stop does not count: it finds room only up to a limit. -/
def linkToDo (l : Link) : Nat :=
  if l.readEnd.isSome then l.inbox.length + stagesLeft l else inboxLimit + 4

/-- A link has come as far as another. -/
inductive AsFar (l l' : Link) : Prop
  | reading (h : l.readEnd = none) (h' : l'.readEnd = none)
  | stopped (h : l.readEnd.isSome = true) (h' : l'.readEnd.isSome = true)
      (hinbox : l'.inbox = l.inbox) (hstage : l'.stage = l.stage)
      (hwriter : ∀ since, l.stage = .flushing since → l'.writerStopped = l.writerStopped)

theorem stagesLeft_le (l : Link) : stagesLeft l ≤ 3 := by
  unfold stagesLeft
  split
  · exact Nat.le_refl 3
  · split <;> decide
  · exact Nat.zero_le 3

theorem AsFar.toDo_eq (h : AsFar l l') : linkToDo l' = linkToDo l := by
  cases h with
  | reading h h' => rw [linkToDo, linkToDo, h, h', if_neg nofun, if_neg nofun]
  | stopped h h' hinbox hstage hwriter =>
    have hstages : stagesLeft l' = stagesLeft l := by
      unfold stagesLeft
      rw [hstage]
      split
      · rfl
      · rename_i since hflushing
        rw [hwriter since hflushing]
      · rfl
    rw [linkToDo, linkToDo, h, h', hinbox, hstages]

theorem linkToDo_of_stopped (h : l.readEnd = none) (h' : l'.readEnd.isSome = true)
    (hroom : l'.inbox.length ≤ inboxLimit) : linkToDo l' < linkToDo l := by
  have hstages := stagesLeft_le l'
  rw [linkToDo, linkToDo, h, h', if_pos rfl, if_neg nofun]
  omega

theorem linkToDo_move {e : LinkEvent} {fx : List LinkEffect} (hm : l.Move e l' fx)
    (hroom : l'.inbox.length ≤ inboxLimit) : linkToDo l' < linkToDo l ∨ AsFar l l' := by
  cases h : l.readEnd with
  | none =>
    cases h' : l'.readEnd with
    | none => exact .inr (.reading h h')
    | some why => exact .inl (linkToDo_of_stopped h (by rw [h']; rfl) hroom)
  | some why =>
    have hstopped : l.readEnd.isSome = true := by rw [h]; rfl
    have hstopped' : l'.readEnd.isSome = true := by rw [Link.readEnd_move h hm]; rfl
    obtain ⟨hinbox, hless | ⟨hstage, hwriter⟩⟩ := stagesLeft_move hstopped hm
    · left
      rw [linkToDo, linkToDo, hstopped, hstopped', if_pos rfl, if_pos rfl, hinbox]
      omega
    · exact .inr (.stopped hstopped hstopped' hinbox hstage hwriter)

theorem writerStopped_emitAll (ms : List Wire.Message) : ∀ l : Link,
    (l.emitAll ms).writerStopped = l.writerStopped := by
  induction ms with
  | nil => exact fun _ => rfl
  | cons m rest ih => exact fun l => (ih _).trans (Link.writerStopped_emitted l m)

theorem asFar_emitAll (l : Link) (ms : List Wire.Message) : AsFar l (l.emitAll ms) := by
  have haside := Link.aside_emitAll ms l
  cases h : l.readEnd with
  | none => exact .reading h (haside.readEnd.trans h)
  | some why =>
    have hstopped : l.readEnd.isSome = true := by rw [h]; rfl
    exact .stopped hstopped (haside.readEnd ▸ hstopped) haside.inbox haside.stage
      fun _ _ => writerStopped_emitAll ms l

theorem linkToDo_take? {m : Wire.Message} (ht : l.take? = some (m, l')) :
    (l.readEnd.isSome = true → linkToDo l' < linkToDo l) ∧ (l.readEnd = none → AsFar l l') := by
  obtain ⟨hinbox, hl'⟩ := Link.take?_eq_some ht
  have hend : l'.readEnd = l.readEnd := by rw [hl']
  have hstages : stagesLeft l' = stagesLeft l := by rw [hl']; rfl
  refine ⟨fun hstopped => ?_, fun hreading => .reading hreading (hend.trans hreading)⟩
  rw [linkToDo, linkToDo, hend, hstopped, if_pos rfl, if_pos rfl, hstages, hinbox, List.length_cons]
  omega

end Links

namespace Serving

theorem room_step (o : Options) (a : Seal.Aead) (now : Nat)
    (h : s.link.inbox.length ≤ inboxLimit) (y : ServingEvent) :
    (s.step o a now y).1.link.inbox.length ≤ inboxLimit := by
  have ht := link_turn o a now s y
  generalize (s.step o a now y).1.link = after at ht
  cases ht with
  | moves e =>
    by_cases hread : e = .read
    · subst hread
      show s.link.read.1.inbox.length ≤ _
      unfold Link.read
      repeat' split
      all_goals first
        | exact h
        | rw [List.length_append, List.length_singleton]; omega
    · have hm := Link.move s.link e
      generalize (s.link.step e).1 = after at hm
      generalize (s.link.step e).2 = fx at hm
      cases hm with
      | reads => exact absurd rfl hread
      | _ => exact h
  | takes nonce m l ht =>
    obtain ⟨hinbox, -⟩ := Link.take?_eq_some ht
    rw [(Link.aside_emitAll _ l).inbox]
    rw [hinbox, List.length_cons] at h
    omega
  | emits =>
    rw [(Link.aside_emitAll _ s.link).inbox]
    exact h

theorem link_start (o : Options) (now : Nat) :
    (start o now).1.link = ({} : Link).emitAll (emittedBy (Session.greeting o)) :=
  (emits_performAll o now (Session.greeting o) { session := .start o }).link

/-- What a connection awaits once its client is shut down. -/
inductive Awaits (s : Serving) : ServingEvent → Prop
  | told (h : s.link.readEnd = none) : Awaits s (.link .shutDown)
  | handle (nonce : Bytes) (h : s.link.readEnd.isSome = true) (hwaits : s.link.inbox ≠ []) :
      Awaits s (.handle nonce)
  | flush (time : Nat) (h : s.link.readEnd.isSome = true) (hdrained : s.link.inbox = [])
      (hopen : s.link.stage = .open) : Awaits s (.link (.beginFlush time))
  | giveUp (time since : Nat) (h : s.link.readEnd.isSome = true)
      (hstage : s.link.stage = .flushing since) (hw : s.link.writerStopped = false)
      (htime : since + flushLimit ≤ time) : Awaits s (.link (.giveUp time))
  | finish (since : Nat) (h : s.link.readEnd.isSome = true)
      (hstage : s.link.stage = .flushing since) (hw : s.link.writerStopped = true) :
      Awaits s (.link .finish)

theorem Awaits.asFar {s' : Serving} (h : s.Awaits y) (hfar : AsFar s.link s'.link) : s'.Awaits y := by
  cases hfar with
  | reading hreading hreading' =>
    cases h with
    | told => exact .told hreading'
    | handle _ h | flush _ h | giveUp _ _ h | finish _ h => simp [hreading] at h
  | stopped hstopped hstopped' hinbox hstage hwriter =>
    cases h with
    | told h => simp [h] at hstopped
    | handle nonce _ hwaits => exact .handle nonce hstopped' (hinbox ▸ hwaits)
    | flush time _ hdrained hopen =>
      exact .flush time hstopped' (hinbox.trans hdrained) (hstage.trans hopen)
    | giveUp time since _ hflushing hw htime =>
      exact .giveUp time since hstopped' (hstage.trans hflushing)
        ((hwriter since hflushing).trans hw) htime
    | finish since _ hflushing hw =>
      exact .finish since hstopped' (hstage.trans hflushing) ((hwriter since hflushing).trans hw)

/-- Every step brings a connection nearer to its end, or leaves it as far from it. -/
theorem toDo_step (o : Options) (a : Seal.Aead) (now : Nat)
    (hroom : s.link.inbox.length ≤ inboxLimit) (y : ServingEvent) :
    linkToDo (s.step o a now y).1.link < linkToDo s.link ∨
      AsFar s.link (s.step o a now y).1.link := by
  have hroom' := room_step o a now hroom y
  have ht := link_turn o a now s y
  generalize (s.step o a now y).1.link = after at ht hroom'
  cases ht with
  | moves e => exact linkToDo_move (Link.move s.link e) hroom'
  | takes nonce m l ht =>
    have hsame := asFar_emitAll l (s.emittedAt o a now (.handle nonce))
    cases h : s.link.readEnd with
    | none =>
      refine .inr (.reading h ?_)
      cases (linkToDo_take? ht).2 h with
      | reading _ h' => exact (Link.aside_emitAll _ l).readEnd.trans h'
      | stopped h' => simp [h] at h'
    | some why => exact .inl (hsame.toDo_eq ▸ (linkToDo_take? ht).1 (by rw [h]; rfl))
  | emits => exact .inr (asFar_emitAll _ _)

/-- What is awaited leaves a connection no further than it was, so that it is nearer to its
end. -/
theorem toDo_awaited (o : Options) (a : Seal.Aead) (now : Nat)
    (hroom : s.link.inbox.length ≤ inboxLimit) (h : s.Awaits y) :
    linkToDo (s.step o a now y).1.link < linkToDo s.link := by
  refine (toDo_step o a now hroom y).resolve_right fun hfar => ?_
  have hstill := h.asFar hfar
  generalize hafter : s.step o a now y = x at hstill hfar
  cases h with
  | told h =>
    have hreading : x.1.link.readEnd = none := by
      cases hstill with
      | told h => exact h
    have htold : x.1.link.readEnd = some .told := by
      rw [← hafter]
      simp only [step, Link.step, Link.shutDown, h, Option.isNone_none, if_true, Link.stopReading]
    cases htold.symm.trans hreading
  | handle nonce h hwaits =>
    cases hfar with
    | reading hreading => simp [hreading] at h
    | stopped _ _ hinbox =>
      obtain ⟨m, rest, hm⟩ := List.exists_cons_of_ne_nil hwaits
      have ht : s.link.take? = some (m, { s.link with inbox := rest }) := by
        simp only [Link.take?, hm]
      have hrest : x.1.link.inbox = rest := by
        rw [← hafter]
        simp only [step, Serving.handle, ht]
        rw [(emits_performAll o now _ _).link, (Link.aside_emitAll _ _).inbox]
      rw [hm, hrest] at hinbox
      exact absurd (congrArg List.length hinbox) (by simp)
  | flush time h hdrained hopen =>
    have hflushing : x.1.link.stage = .flushing time := by
      rw [← hafter]
      simp only [step, Link.step, Link.beginFlush]
      rw [if_pos ⟨hopen, h, hdrained⟩]
    cases hstill with
    | flush _ _ _ hopen' => cases hflushing.symm.trans hopen'
  | giveUp time since h hstage hw htime =>
    have hdone : x.1.link.writerStopped = true := by
      rw [← hafter]
      simp only [step, Link.step, Link.giveUp, hstage]
      rw [if_pos ⟨htime, hw⟩]
    cases hstill with
    | giveUp _ _ _ _ hw' => cases hdone.symm.trans hw'
  | finish since h hstage hw =>
    have hdone : x.1.link.stage = .finished := by
      rw [← hafter]
      simp only [step, Link.step, Link.finish, hstage]
      rw [if_pos hw]
    cases hstill with
    | finish _ _ hstage' => cases hdone.symm.trans hstage'

end Serving

/-! ## In every phase -/

namespace Loop

variable {l : Loop} {e : LoopEvent}

/-- An event that a phase is about. -/
def Concerns (l : Loop) : LoopEvent → Prop
  | .go => l.phase = .ready
  | .dialed _ => l.phase = .dialing
  | .serving _ => ∃ s, l.phase = .serving s
  | _ => False

/-- The phase of a client that would rest. -/
def restingOr (shut : Bool) (till : Nat) : Phase := if shut then .stopped else .resting till

/-- What a step makes of the phase of a client, and whether the client is shut down then. -/
inductive Turns (a : Seal.Aead) (now : Nat) (l : Loop) : LoopEvent → Phase → Bool → Prop
  | stays (e : LoopEvent) (hother : ¬l.Concerns e) : Turns a now l e l.phase l.shutDown
  | connects (hready : l.phase = .ready) (hshut : l.shutDown = false) :
      Turns a now l .go .dialing l.shutDown
  | leaves (hready : l.phase = .ready) (hshut : l.shutDown = true) :
      Turns a now l .go .stopped l.shutDown
  | reaches (hdialing : l.phase = .dialing) :
      Turns a now l (.dialed true) (.serving (Serving.start l.options now).1) l.shutDown
  | fails (till : Nat) (hdialing : l.phase = .dialing) :
      Turns a now l (.dialed false) (restingOr l.shutDown till) l.shutDown
  | goesOn (s : Serving) (y : ServingEvent) (hserving : l.phase = .serving s)
      (hopen : (s.step l.options a now y).1.link.stage ≠ .finished) :
      Turns a now l (.serving y) (.serving (s.step l.options a now y).1) l.shutDown
  | ends (s : Serving) (y : ServingEvent) (till : Nat) (hserving : l.phase = .serving s) :
      Turns a now l (.serving y) (restingOr l.shutDown till) l.shutDown
  | wakes (till : Nat) (hresting : l.phase = .resting till) : Turns a now l .wake .ready l.shutDown
  | told (hbusy : ∀ till, l.phase ≠ .resting till) : Turns a now l .shutDown l.phase true
  | toldResting (till : Nat) (hresting : l.phase = .resting till) :
      Turns a now l .shutDown .stopped true

theorem phase_rest (l : Loop) (now : Nat) : ∃ till,
    (l.rest now).1.phase = restingOr l.shutDown till ∧ (l.rest now).1.shutDown = l.shutDown := by
  simp only [rest, publish_eq]
  exact ⟨_, rfl, trivial⟩

theorem phase_absorb (l : Loop) (fx : List ServingEffect) :
    (l.absorb fx).1.phase = l.phase ∧ (l.absorb fx).1.shutDown = l.shutDown := by
  obtain ⟨s, hs⟩ := absorb_eq fx l
  rw [hs]
  exact ⟨rfl, rfl⟩

theorem turns_go (a : Seal.Aead) (now : Nat) (l : Loop) :
    Turns a now l .go l.go.1.phase l.go.1.shutDown := by
  cases hphase : l.phase with
  | ready =>
    simp only [go, hphase]
    split
    · rename_i hshut
      simp only [publish_eq]
      exact .leaves hphase hshut
    · rename_i hshut
      simp only [publish_eq]
      exact .connects hphase (Bool.eq_false_iff.mpr hshut)
  | _ =>
    have hother : ¬l.Concerns .go := by simp [Concerns, hphase]
    simp only [go, hphase]
    rw [← hphase]
    exact .stays _ hother

theorem turns_dialed (a : Seal.Aead) (now : Nat) (l : Loop) (success : Bool) :
    Turns a now l (.dialed success) (l.dialed now success).1.phase
      (l.dialed now success).1.shutDown := by
  cases hphase : l.phase with
  | dialing =>
    simp only [dialed, hphase]
    cases success with
    | true =>
      rw [if_pos rfl, (phase_absorb _ _).1, (phase_absorb _ _).2]
      exact .reaches hphase
    | false =>
      obtain ⟨till, hrests, hsame⟩ := phase_rest l now
      rw [if_neg Bool.false_ne_true, hrests, hsame]
      exact .fails till hphase
  | _ =>
    have hother : ¬l.Concerns (.dialed success) := by simp [Concerns, hphase]
    simp only [dialed, hphase]
    rw [← hphase]
    exact .stays _ hother

theorem turns_serve (a : Seal.Aead) (now : Nat) (l : Loop) (y : ServingEvent) :
    Turns a now l (.serving y) (l.serve a now y).1.phase (l.serve a now y).1.shutDown := by
  cases hphase : l.phase with
  | serving s =>
    simp only [serve, hphase]
    split
    · obtain ⟨till, hrests, hsame⟩ := phase_rest _ now
      rw [hrests, hsame, (phase_absorb _ _).2]
      exact .ends s y till hphase
    · rename_i hopen
      rw [(phase_absorb _ _).1, (phase_absorb _ _).2]
      exact .goesOn s y hphase hopen
  | _ =>
    have hother : ¬l.Concerns (.serving y) := by simp [Concerns, hphase]
    simp only [serve, hphase]
    rw [← hphase]
    exact .stays _ hother

theorem turns (a : Seal.Aead) (now : Nat) (l : Loop) (e : LoopEvent) :
    Turns a now l e (l.step a now e).1.phase (l.step a now e).1.shutDown := by
  cases e with
  | go => exact turns_go a now l
  | dialed success => exact turns_dialed a now l success
  | serving y => exact turns_serve a now l y
  | past c n de =>
    rw [step, servePast]
    split
    · exact .stays _ id
    · rw [(phase_absorb _ _).1, (phase_absorb _ _).2]
      exact .stays _ id
  | wake =>
    rw [step, wake]
    split
    · rename_i till hresting
      split
      · exact .wakes till hresting
      · exact .stays _ id
    · exact .stays _ id
  | shutDown =>
    rw [step, beginShutDown]
    split
    · rename_i till hresting
      exact .toldResting till hresting
    · rename_i hbusy
      exact .told hbusy

/-- A client that is shut down does not rest, and one that has stopped is shut down. -/
structure Heeds (phase : Phase) (shut : Bool) : Prop where
  awake : shut = true → ∀ till, phase ≠ .resting till
  stopped : phase = .stopped → shut = true

theorem heeds_restingOr (shut : Bool) (till : Nat) : Heeds (restingOr shut till) shut := by
  cases shut with
  | true => exact ⟨fun _ _ => nofun, fun _ => rfl⟩
  | false => exact ⟨nofun, nofun⟩

theorem Turns.heeds {phase : Phase} {shut : Bool} (h : Heeds l.phase l.shutDown)
    (ht : Turns a now l e phase shut) : Heeds phase shut := by
  cases ht with
  | stays => exact h
  | leaves _ hshut => exact ⟨fun _ _ => nofun, fun _ => hshut⟩
  | fails till | ends _ _ till => exact heeds_restingOr _ till
  | told hbusy => exact ⟨fun _ => hbusy, fun _ => rfl⟩
  | toldResting => exact ⟨fun _ _ => nofun, fun _ => rfl⟩
  | connects | reaches | goesOn | wakes => exact ⟨fun _ _ => nofun, nofun⟩

theorem Turns.shut {phase : Phase} {shut : Bool} (h : l.shutDown = true)
    (ht : Turns a now l e phase shut) : shut = true := by
  cases ht with
  | told | toldResting => rfl
  | _ => exact h

/-! ## Nearer to the end -/

/-- What a client that is shut down has still to do until it stops. -/
def phaseToDo : Phase → Nat
  | .ready => 1
  | .dialing => inboxLimit + 6
  | .serving s => linkToDo s.link + 1
  | .resting _ => 0
  | .stopped => 0

/-- What a client that is shut down awaits. -/
inductive Awaits (l : Loop) : LoopEvent → Prop
  | go (hready : l.phase = .ready) : Awaits l .go
  | dialed (success : Bool) (hdialing : l.phase = .dialing) : Awaits l (.dialed success)
  | serving (s : Serving) (y : ServingEvent) (hserving : l.phase = .serving s) (hy : s.Awaits y) :
      Awaits l (.serving y)

theorem Awaits.concerns (h : l.Awaits e) : l.Concerns e := by
  cases h with
  | go hready => exact hready
  | dialed _ hdialing => exact hdialing
  | serving s _ hserving => exact ⟨s, hserving⟩

theorem Awaits.of_phase {x : Loop} (h : l.Awaits e) (hphase : x.phase = l.phase) : x.Awaits e := by
  cases h with
  | go hready => exact .go (hphase.trans hready)
  | dialed success hdialing => exact .dialed success (hphase.trans hdialing)
  | serving s y hserving hy => exact .serving s y (hphase.trans hserving) hy

/-- A connection that is served is not finished. -/
def Unfinished (phase : Phase) : Prop := ∀ s, phase = .serving s → s.link.stage ≠ .finished

theorem Turns.unfinished {phase : Phase} {shut : Bool} (h : Unfinished l.phase)
    (ht : Turns a now l e phase shut) : Unfinished phase := by
  have hresting (till : Nat) : Unfinished (restingOr l.shutDown till) := by
    cases l.shutDown <;> exact nofun
  cases ht with
  | stays => exact h
  | told => exact h
  | reaches =>
    rintro _ ⟨⟩
    rw [Serving.link_start, (Link.aside_emitAll _ _).stage]
    exact nofun
  | fails till | ends _ _ till => exact hresting till
  | goesOn _ _ _ hopen =>
    rintro _ ⟨⟩
    exact hopen
  | connects | leaves | wakes | toldResting => exact nofun

/-- What is read on a connection that is served waits within a limit. -/
def Roomy (l : Loop) : Prop := ∀ s, l.phase = .serving s → s.link.inbox.length ≤ inboxLimit

/-- Every step brings a client that is shut down nearer to its end, or it is none that is
awaited and what is awaited stays. -/
theorem Turns.toDo {x : Loop} (hshut : l.shutDown = true) (hroom : l.Roomy)
    (ht : Turns a now l e x.phase x.shutDown) (hawake : ∀ till, l.phase ≠ .resting till) :
    phaseToDo x.phase < phaseToDo l.phase ∨ phaseToDo x.phase = phaseToDo l.phase ∧
      ¬l.Awaits e ∧ ∀ e', l.Awaits e' → x.Awaits e' := by
  have hstays (hsame : x.phase = l.phase) (hother : ¬l.Concerns e) :
      phaseToDo x.phase < phaseToDo l.phase ∨ phaseToDo x.phase = phaseToDo l.phase ∧
        ¬l.Awaits e ∧ ∀ e', l.Awaits e' → x.Awaits e' :=
    .inr ⟨by rw [hsame], fun h => hother h.concerns, fun e' h => h.of_phase hsame⟩
  generalize hphase : x.phase = phase at ht
  generalize x.shutDown = shut at ht
  cases ht with
  | stays _ hother => exact hphase ▸ hstays hphase hother
  | connects _ hoff => cases hshut.symm.trans hoff
  | leaves hready =>
    rw [hready]
    exact .inl (by decide)
  | reaches hdialing =>
    have hlink : linkToDo (Serving.start l.options now).1.link = inboxLimit + 4 := by
      rw [Serving.link_start]
      exact (asFar_emitAll {} _).toDo_eq
    rw [hdialing, phaseToDo, phaseToDo, hlink]
    exact .inl (Nat.lt_succ_self _)
  | fails till hdialing =>
    rw [hdialing, hshut]
    exact .inl (Nat.succ_pos _)
  | ends s y till hserving =>
    rw [hserving, hshut]
    exact .inl (Nat.succ_pos _)
  | goesOn s y hserving hopen =>
    rw [hserving]
    by_cases hy : s.Awaits y
    · exact .inl (Nat.succ_lt_succ (Serving.toDo_awaited _ a now (hroom s hserving) hy))
    · rcases Serving.toDo_step l.options a now (hroom s hserving) y with hless | hfar
      · exact .inl (Nat.succ_lt_succ hless)
      · refine .inr ⟨congrArg (· + 1) hfar.toDo_eq, fun h => ?_, fun e' h => ?_⟩
        · cases h with
          | serving s' y hserving' hy' =>
            cases hserving.symm.trans hserving'
            exact hy hy'
        · cases h with
          | serving s' y' hserving' hy' =>
            cases hserving.symm.trans hserving'
            exact .serving _ y' hphase (hy'.asFar hfar)
          | go h => cases hserving.symm.trans h
          | dialed _ h => cases hserving.symm.trans h
  | wakes till hresting => exact absurd hresting (hawake till)
  | told => exact hphase ▸ hstays hphase id
  | toldResting till hresting => exact absurd hresting (hawake till)

/-! ## At every moment -/

/-- What a client waits for comes again and again: it connects, the attempt to connect ends,
and of a connection that is served messages are handled and time goes on for its link. Once
the client is shut down, the reader of the connection is told so. -/
structure Unhindered (course : Course (stepAt a) (start o)) : Prop where
  goes : ∀ n, ∃ k, n ≤ k ∧ (course.happens k).2 = .go
  dials : ∀ n, ∃ k, n ≤ k ∧ ∃ success, (course.happens k).2 = .dialed success
  tells : ∀ n, (course.state n).shutDown = true →
    ∃ k, n ≤ k ∧ (course.happens k).2 = .serving (.link .shutDown)
  handles : ∀ n, ∃ k, n ≤ k ∧ ∃ nonce, (course.happens k).2 = .serving (.handle nonce)
  flushes : ∀ n, ∃ k, n ≤ k ∧ ∃ time, (course.happens k).2 = .serving (.link (.beginFlush time))
  givesUp : ∀ n time, ∃ k, n ≤ k ∧ ∃ later, time ≤ later ∧
    (course.happens k).2 = .serving (.link (.giveUp later))
  finishes : ∀ n, ∃ k, n ≤ k ∧ (course.happens k).2 = .serving (.link .finish)

section Moments

variable (course : Course (stepAt a) (start o))

theorem turns_at (n : Nat) : Turns a (course.happens n).1 (course.state n) (course.happens n).2
    (course.state (n + 1)).phase (course.state (n + 1)).shutDown :=
  turns a _ _ _

theorem heeds (n : Nat) : Heeds (course.state n).phase (course.state n).shutDown := by
  induction n with
  | zero => exact ⟨nofun, nofun⟩
  | succ n ih => exact (turns_at course n).heeds ih

theorem unfinished (n : Nat) : Unfinished (course.state n).phase := by
  induction n with
  | zero => exact nofun
  | succ n ih => exact (turns_at course n).unfinished ih

theorem roomy (n : Nat) : (course.state n).Roomy := by
  intro s hs
  obtain ⟨m, i, -, -, rfl, -⟩ := made_of_serving course hs
  refine (alone course _ m).always (P := fun s => s.link.inbox.length ≤ inboxLimit) ?_
    (fun s e h => Serving.room_step o a e.1 h e.2) i
  exact Nat.zero_le _

variable {course}

theorem shut_from {n k : Nat} (hshut : (course.state n).shutDown = true) (hnk : n ≤ k) :
    (course.state k).shutDown = true := by
  induction hnk with
  | refl => exact hshut
  | step _ ih => exact (turns_at course _).shut ih

/-- As long as something is to be done, something is awaited, and it comes. -/
theorem Unhindered.comes (hc : Unhindered course) {n : Nat} (hshut : (course.state n).shutDown = true)
    (hpos : 0 < phaseToDo (course.state n).phase) :
    ∃ k, n ≤ k ∧ (course.state n).Awaits (course.happens k).2 := by
  cases hphase : (course.state n).phase with
  | ready =>
    obtain ⟨k, hk, he⟩ := hc.goes n
    exact ⟨k, hk, he ▸ .go hphase⟩
  | dialing =>
    obtain ⟨k, hk, success, he⟩ := hc.dials n
    exact ⟨k, hk, he ▸ .dialed success hphase⟩
  | serving s =>
    cases hr : s.link.readEnd with
    | none =>
      obtain ⟨k, hk, he⟩ := hc.tells n hshut
      exact ⟨k, hk, he ▸ .serving s _ hphase (.told hr)⟩
    | some why =>
      have hstopped : s.link.readEnd.isSome = true := by rw [hr]; rfl
      by_cases hdrained : s.link.inbox = []
      · cases hstage : s.link.stage with
        | «open» =>
          obtain ⟨k, hk, time, he⟩ := hc.flushes n
          exact ⟨k, hk, he ▸ .serving s _ hphase (.flush time hstopped hdrained hstage)⟩
        | flushing since =>
          cases hw : s.link.writerStopped with
          | true =>
            obtain ⟨k, hk, he⟩ := hc.finishes n
            exact ⟨k, hk, he ▸ .serving s _ hphase (.finish since hstopped hstage hw)⟩
          | false =>
            obtain ⟨k, hk, later, hlater, he⟩ := hc.givesUp n (since + flushLimit)
            exact ⟨k, hk, he ▸ .serving s _ hphase (.giveUp later since hstopped hstage hw hlater)⟩
        | finished => exact absurd hstage (unfinished course n s hphase)
      · obtain ⟨k, hk, nonce, he⟩ := hc.handles n
        exact ⟨k, hk, he ▸ .serving s _ hphase (.handle nonce hstopped hdrained)⟩
  | resting till =>
    rw [hphase] at hpos
    cases hpos
  | stopped =>
    rw [hphase] at hpos
    cases hpos

theorem Unhindered.stops (hc : Unhindered course) {n : Nat}
    (hshut : (course.state n).shutDown = true) :
    ∃ k, n ≤ k ∧ (course.state k).phase = .stopped := by
  obtain ⟨k, hk, hnothing⟩ := course.runs_down (fun l => phaseToDo l.phase) (fun l e => l.Awaits e.2)
    (fun k hk => hc.comes (shut_from hshut hk))
    fun k hk =>
      ((turns_at course k).toDo (shut_from hshut hk) (roomy course k)
        ((heeds course k).awake (shut_from hshut hk))).imp_right
        fun ⟨hsame, hother, hstill⟩ => ⟨hsame, hother, fun e h => hstill e.2 h⟩
  refine ⟨k, hk, ?_⟩
  cases hphase : (course.state k).phase with
  | stopped => rfl
  | resting till => exact absurd hphase ((heeds course k).awake (shut_from hshut hk) till)
  | _ =>
    rw [hphase] at hnothing
    cases hnothing

theorem statesOf_stopped (hstopped : l.phase = .stopped) (a : Seal.Aead) (now : Nat)
    (e : LoopEvent) : (l.step a now e).1.phase = .stopped ∧ statesOf (l.step a now e).2 = [] := by
  cases e with
  | past c n de =>
    rw [step, servePast]
    split
    · exact ⟨hstopped, rfl⟩
    · rename_i s _
      obtain ⟨hsame, hnone⟩ := absorb_none (s.dial now n de).2
        { l with past := l.past.set c (s.dial now n de).1 }
        (Serving.turn_dial l.options now n de s).states
      rw [hsame]
      exact ⟨hstopped, hnone⟩
  | go => simp [step, go, hstopped, statesOf]
  | dialed success => simp [step, dialed, hstopped, statesOf]
  | serving y => simp [step, serve, hstopped, statesOf]
  | wake => simp [step, wake, hstopped, statesOf]
  | shutDown => simp [step, beginShutDown, hstopped, statesOf]

theorem stopped_for_good {n : Nat} (hstopped : (course.state n).phase = .stopped) {k : Nat}
    (hnk : n ≤ k) : (course.state k).phase = .stopped ∧ (course.state k).state = .disconnected ∧
      statesOf (course.effects k) = statesOf (course.effects n) := by
  have hstate {k : Nat} (h : (course.state k).phase = .stopped) :
      (course.state k).state = .disconnected := by
    rw [state_eq, h]
    rfl
  induction hnk with
  | refl => exact ⟨hstopped, hstate hstopped, rfl⟩
  | @step k _ ih =>
    obtain ⟨hphase, -, hsilent⟩ := ih
    obtain ⟨hphase', hnone⟩ := statesOf_stopped hphase a (course.happens k).1 (course.happens k).2
    refine ⟨hphase', hstate hphase', ?_⟩
    rw [Course.effects, statesOf_append, hsilent]
    show _ ++ statesOf ((course.state k).step a _ _).2 = _
    rw [hnone, List.append_nil]

end Moments

end Loop

end ReverseTunnel.Client

import ReverseTunnel.Client.Loop
import ReverseTunnel.Proofs.Client.DialBack

/-!
The attempts of a client to dial back.

A client keeps the attempts of every control connection that it has had, also of those that
are finished. An attempt is known for good by the number of its control connection and its
number there. A step of the client is a step of one attempt and changes no other
(`step_of_dial`), or it leaves all of them as they are and may begin new ones
(`step_of_other`).
-/

namespace ReverseTunnel.Client

/-! ## What goes out -/

def ServingEffect.brings (key : Nat) : ServingEffect → Bytes
  | .dial _ e => e.brings key
  | .link _ => []
  | .publish _ => []

/-- What the attempts on a control connection bring to a connection. -/
def carried (fx : List ServingEffect) (key : Nat) : Bytes := fx.flatMap (·.brings key)

def LoopEffect.brings (key : Nat) : LoopEffect → Bytes
  | .serving e => e.brings key
  | .dial _ => []
  | .published _ => []

/-- What a client brings to a connection of one of its attempts. -/
def outgoing (fx : List LoopEffect) (key : Nat) : Bytes := fx.flatMap (·.brings key)

theorem carried_append (fx fy : List ServingEffect) (key : Nat) :
    carried (fx ++ fy) key = carried fx key ++ carried fy key := List.flatMap_append

theorem outgoing_append (fx fy : List LoopEffect) (key : Nat) :
    outgoing (fx ++ fy) key = outgoing fx key ++ outgoing fy key := List.flatMap_append

theorem carried_links (fx : List Control.LinkEffect) (key : Nat) : carried (fx.map .link) key = [] :=
  List.flatMap_eq_nil_iff.mpr fun x hx => by
    obtain ⟨y, -, rfl⟩ := List.mem_map.mp hx
    rfl

/-! ## On one control connection -/

/-- The attempt to which something happens. -/
def ServingEvent.attempt? : ServingEvent → Option Nat
  | .dial n _ => some n
  | _ => none

namespace Serving

variable {s s' s'' : Serving} {fx fy : List ServingEffect} {d : DialBack} {n : Nat}

/-- New attempts may have begun, and nothing has gone out on a connection of any. -/
structure Asks (s : Serving) (x : Serving × List ServingEffect) : Prop where
  dials : ∃ new, x.1.dials = s.dials ++ new ∧ ∀ d ∈ new, ∃ deadline, d.stage = .dialingData deadline
  silent : ∀ key, carried x.2 key = []

theorem asks_nothing (h : s'.dials = s.dials) : s.Asks (s', []) :=
  ⟨⟨[], by rw [h, List.append_nil], nofun⟩, fun _ => rfl⟩

theorem Asks.trans (h : s.Asks (s', fx)) (h' : s'.Asks (s'', fy)) : s.Asks (s'', fx ++ fy) := by
  obtain ⟨new, hdials, hnew⟩ := h.dials
  obtain ⟨new', hdials', hnew'⟩ := h'.dials
  refine ⟨⟨new ++ new', ?_, fun d hd => ?_⟩, fun key => ?_⟩
  · rw [hdials', hdials, List.append_assoc]
  · exact (List.mem_append.mp hd).elim (hnew d) (hnew' d)
  · rw [carried_append, h.silent, h'.silent]
    rfl

theorem asks_emit (s : Serving) (m : Wire.Message) : s.Asks (s.emit m) :=
  ⟨⟨[], (List.append_nil _).symm, nofun⟩, fun key => carried_links _ key⟩

theorem asks_perform (o : Options) (now : Nat) (s : Serving) (x : SessionAction) :
    s.Asks (s.perform o now x) := by
  cases x with
  | publish state => exact ⟨⟨[], (List.append_nil _).symm, nofun⟩, fun _ => rfl⟩
  | emit m => exact asks_emit s m
  | beatAfter delay => exact asks_nothing rfl
  | dialBack session dataAddr localAddr =>
    refine ⟨⟨_, rfl, fun d hd => ?_⟩, fun key => rfl⟩
    rw [List.mem_singleton.mp hd]
    exact ⟨_, rfl⟩

theorem asks_performAll (o : Options) (now : Nat) (xs : List SessionAction) : ∀ s : Serving,
    s.Asks (performAll o now s xs) := by
  induction xs with
  | nil => exact fun s => asks_nothing rfl
  | cons x rest ih => exact fun s => (asks_perform o now s x).trans (ih _)

theorem asks_step (o : Options) (a : Seal.Aead) (now : Nat) (s : Serving) {e : ServingEvent}
    (he : e.attempt? = none) : s.Asks (s.step o a now e) := by
  cases e with
  | link y => exact ⟨⟨[], (List.append_nil _).symm, nofun⟩, fun key => carried_links _ key⟩
  | handle nonce =>
    rw [step, handle]
    split
    · exact asks_nothing rfl
    · rename_i m link _
      have hread : s.Asks
          ({ s with link, session := (s.session.handle o a nonce m).1 }, []) := asks_nothing rfl
      exact hread.trans (asks_performAll o now _ _)
  | beat =>
    rw [step, beat]
    split
    · exact asks_nothing rfl
    · dsimp only
      split
      · exact asks_nothing rfl
      · rename_i due _ _
        have hspent : s.Asks ({ s with beats := s.beats.erase due }, []) := asks_nothing rfl
        exact hspent.trans (asks_emit _ _)
  | dial _ _ => cases he

theorem carried_dialEffects (session : UInt32) (es : List DialEffect) : ∀ s : Serving,
    (dialEffects n session s es).1.dials = s.dials ∧
      ∀ key, carried (dialEffects n session s es).2 key = brought es key := by
  induction es with
  | nil => exact fun _ => ⟨rfl, fun _ => rfl⟩
  | cons e rest ih =>
    intro s
    have hfirst : (s.dialEffect n session e).1.dials = s.dials ∧
        ∀ key, carried (s.dialEffect n session e).2 key = e.brings key := by
      cases e with
      | report success => exact ⟨rfl, fun key => carried_links _ key⟩
      | dial _ | relay _ | drop _ => exact ⟨rfl, fun key => List.append_nil _⟩
    obtain ⟨hdials, hcarried⟩ := ih (s.dialEffect n session e).1
    refine ⟨hdials.trans hfirst.1, fun key => ?_⟩
    rw [dialEffects, carried_append, hfirst.2, hcarried]
    rfl

theorem dial_of_some (now : Nat) (de : DialEvent) (hd : s.dials[n]? = some d) :
    (s.dial now n de).1.dials = s.dials.set n (d.step now de).1 ∧
      ∀ key, carried (s.dial now n de).2 key = brought (d.step now de).2 key := by
  rw [dial, hd]
  exact carried_dialEffects _ _ _

theorem dial_of_none (now : Nat) (de : DialEvent) (hd : s.dials[n]? = none) :
    s.dial now n de = (s, []) := by rw [dial, hd]

end Serving

/-! ## In a client -/

/-- An attempt of a client: which of its control connections it was asked for on, and which
attempt there it is. -/
structure Attempt where
  connection : Nat
  number : Nat
  deriving DecidableEq, Repr

namespace Loop

variable {l : Loop} {p q : Attempt} {de : DialEvent} {e : LoopEvent} {now : Nat}

/-- The control connections of a client in the order in which it made them. -/
def servings (l : Loop) : List Serving :=
  l.past ++ match l.phase with
    | .serving s => [s]
    | _ => []

/-- How far an attempt of a client has come. -/
def attempt? (l : Loop) (p : Attempt) : Option DialBack :=
  l.servings[p.connection]?.bind (·.dials[p.number]?)

/-- The event of a client with which something happens to an attempt. -/
def event (l : Loop) (p : Attempt) (de : DialEvent) : LoopEvent :=
  if p.connection < l.past.length then .past p.connection p.number de
  else .serving (.dial p.number de)

/-- What happens to which attempt with an event. -/
def dial? (l : Loop) : LoopEvent → Option (Attempt × DialEvent)
  | .serving (.dial n de) => some (⟨l.past.length, n⟩, de)
  | .past c n de => if c < l.past.length then some (⟨c, n⟩, de) else none
  | _ => none

theorem servings_of_serving {s : Serving} (h : l.phase = .serving s) : l.servings = l.past ++ [s] := by
  rw [servings, h]

theorem servings_of_idle (h : ∀ s, l.phase ≠ .serving s) : l.servings = l.past := by
  unfold servings
  split
  · rename_i s hs
    exact absurd hs (h s)
  · exact List.append_nil _

theorem publish_frame (l : Loop) (s : State) :
    (l.publish s).1.past = l.past ∧ (l.publish s).1.phase = l.phase ∧
      ∀ key, outgoing (l.publish s).2 key = [] := by
  unfold publish
  split <;> exact ⟨rfl, rfl, fun _ => rfl⟩

theorem absorb_frame (fx : List ServingEffect) : ∀ l : Loop,
    (l.absorb fx).1.past = l.past ∧ (l.absorb fx).1.phase = l.phase ∧
      ∀ key, outgoing (l.absorb fx).2 key = carried fx key := by
  induction fx with
  | nil => exact fun _ => ⟨rfl, rfl, fun _ => rfl⟩
  | cons x rest ih =>
    intro l
    cases x with
    | publish s =>
      obtain ⟨hpast, hphase, hsilent⟩ := publish_frame l s
      obtain ⟨hpast', hphase', hout⟩ := ih (l.publish s).1
      refine ⟨hpast'.trans hpast, hphase'.trans hphase, fun key => ?_⟩
      rw [absorb, outgoing_append, hsilent, hout]
      rfl
    | link y | dial n y =>
      obtain ⟨hpast, hphase, hout⟩ := ih l
      exact ⟨hpast, hphase, fun key => congrArg _ (hout key)⟩

theorem servings_absorb (l : Loop) (fx : List ServingEffect) :
    (l.absorb fx).1.servings = l.servings := by
  obtain ⟨hpast, hphase, -⟩ := absorb_frame fx l
  rw [servings, servings, hpast, hphase]

theorem rest_frame (l : Loop) (now : Nat) :
    (l.rest now).1.servings = l.past ∧ ∀ key, outgoing (l.rest now).2 key = [] := by
  obtain ⟨hpast, -, hsilent⟩ := publish_frame l .disconnected
  refine ⟨?_, hsilent⟩
  rw [servings_of_idle, ← hpast]
  · rfl
  · intro s
    show (if _ then _ else _) ≠ _
    split <;> exact nofun

theorem serve_frame {s : Serving} (h : l.phase = .serving s) (a : Seal.Aead) (now : Nat)
    (e : ServingEvent) :
    (l.serve a now e).1.servings = l.past ++ [(s.step l.options a now e).1] ∧
      ∀ key, outgoing (l.serve a now e).2 key = carried (s.step l.options a now e).2 key := by
  let x := s.step l.options a now e
  obtain ⟨hpast, hphase, hout⟩ := absorb_frame x.2 { l with phase := .serving x.1 }
  simp only [serve, h]
  split
  · -- the connection is finished, and is kept with those before it
    obtain ⟨hservings, hsilent⟩ := rest_frame { (Loop.absorb { l with phase := .serving x.1 } x.2).1 with
      past := (Loop.absorb { l with phase := .serving x.1 } x.2).1.past ++ [x.1] } now
    refine ⟨hservings.trans (congrArg (· ++ [x.1]) hpast), fun key => ?_⟩
    rw [outgoing_append, hsilent, List.append_nil]
    exact hout key
  · refine ⟨?_, hout⟩
    rw [servings_of_serving hphase, hpast]

theorem servePast_frame {s : Serving} {c : Nat} (h : l.past[c]? = some s) (now n : Nat) (de : DialEvent) :
    (l.servePast now c n de).1.servings = l.servings.set c (s.dial now n de).1 ∧
      ∀ key, outgoing (l.servePast now c n de).2 key = carried (s.dial now n de).2 key := by
  simp only [servePast, h]
  refine ⟨?_, (absorb_frame _ _).2.2⟩
  have hlt : c < l.past.length := (List.getElem?_eq_some_iff.mp h).1
  rw [servings_absorb, servings, servings, List.set_append_left _ _ hlt]

/-! ## Step by step -/

/-- A step of one attempt. -/
structure Steps (l : Loop) (p : Attempt) (d : DialBack) (now : Nat) (de : DialEvent)
    (x : Loop × List LoopEffect) : Prop where
  attempt : ∀ q, x.1.attempt? q = if q = p then some (d.step now de).1 else l.attempt? q
  brings : ∀ key, outgoing x.2 key = brought (d.step now de).2 key

/-- Nothing happens to any attempt. -/
structure Rests (l : Loop) (x : Loop × List LoopEffect) : Prop where
  attempt : ∀ q, x.1.attempt? q = l.attempt? q
  silent : ∀ key, outgoing x.2 key = []

theorem rests_of_servings {x : Loop × List LoopEffect} (h : x.1.servings = l.servings)
    (hsilent : ∀ key, outgoing x.2 key = []) : l.Rests x := by
  refine ⟨fun q => ?_, hsilent⟩
  rw [attempt?, attempt?, h]

theorem attempt?_of_set {s s' : Serving} {x : Loop} {c : Nat} (hs : l.servings[c]? = some s)
    (hservings : x.servings = l.servings.set c s') (q : Attempt) :
    x.attempt? q = if q.connection = c then s'.dials[q.number]? else l.attempt? q := by
  have hlt : c < l.servings.length := (List.getElem?_eq_some_iff.mp hs).1
  rw [attempt?, attempt?, hservings, List.getElem?_set]
  by_cases hq : q.connection = c
  · rw [if_pos hq.symm, if_pos hlt, if_pos hq, Option.bind_some]
  · rw [if_neg (Ne.symm hq), if_neg hq]

theorem steps_of_set {s : Serving} {x : Loop × List LoopEffect}
    (hs : l.servings[p.connection]? = some s)
    (hservings : x.1.servings = l.servings.set p.connection (s.dial now p.number de).1)
    (hout : ∀ key, outgoing x.2 key = carried (s.dial now p.number de).2 key) :
    (∃ d, l.attempt? p = some d ∧ l.Steps p d now de x) ∨ (l.attempt? p = none ∧ l.Rests x) := by
  have hattempt : ∀ q : Attempt, q.connection = p.connection →
      l.attempt? q = s.dials[q.number]? := by
    intro q hq
    rw [attempt?, hq, hs, Option.bind_some]
  have hafter := attempt?_of_set hs hservings
  cases hd : s.dials[p.number]? with
  | none =>
    rw [Serving.dial_of_none now de hd] at hafter hout
    refine .inr ⟨(hattempt p rfl).trans hd, fun q => ?_, hout⟩
    rw [hafter]
    split
    · rename_i hq
      exact (hattempt q hq).symm
    · rfl
  | some d =>
    obtain ⟨hdials, hcarried⟩ := Serving.dial_of_some now de hd
    refine .inl ⟨d, (hattempt p rfl).trans hd, fun q => ?_, fun key => (hout key).trans (hcarried key)⟩
    have hlt : p.number < s.dials.length := (List.getElem?_eq_some_iff.mp hd).1
    rw [hafter, hdials, List.getElem?_set]
    by_cases hq : q = p
    · rw [hq, if_pos rfl, if_pos rfl, if_pos hlt, if_pos rfl]
    · rw [if_neg hq]
      split
      · rename_i hconnection
        have hnumber : p.number ≠ q.number := fun hn => hq (by
          cases p
          cases q
          simp_all)
        rw [if_neg hnumber, hattempt q hconnection]
      · rfl

theorem step_of_dial (a : Seal.Aead) (now : Nat) (he : l.dial? e = some (p, de)) :
    (∃ d, l.attempt? p = some d ∧ l.Steps p d now de (l.step a now e)) ∨
      (l.attempt? p = none ∧ l.Rests (l.step a now e)) := by
  cases e with
  | serving y =>
    cases y with
    | dial n de' =>
      cases he
      by_cases hserving : ∃ s, l.phase = .serving s
      · obtain ⟨s, hs⟩ := hserving
        have hservings := servings_of_serving hs
        obtain ⟨hafter, hout⟩ := serve_frame hs a now (.dial n de)
        refine steps_of_set (s := s) ?_ ?_ hout
        · rw [hservings, List.getElem?_concat_length]
        · show (l.serve a now (.dial n de)).1.servings = _
          rw [hafter, hservings, List.set_append_right _ _ (Nat.le_refl _), Nat.sub_self]
          rfl
      · have hidle := servings_of_idle fun s hs => hserving ⟨s, hs⟩
        have hstay : l.step a now (.serving (.dial n de)) = (l, []) := by
          rw [step, serve]
          split
          · rename_i s hs
            exact absurd ⟨s, hs⟩ hserving
          · rfl
        refine .inr ⟨?_, hstay ▸ rests_of_servings rfl fun _ => rfl⟩
        rw [attempt?, hidle, List.getElem?_eq_none (Nat.le_refl _), Option.bind_none]
    | _ => cases he
  | past c n de' =>
    simp only [dial?] at he
    split at he
    · rename_i hlt
      cases he
      have hs : l.past[c]? = some l.past[c] := List.getElem?_eq_getElem hlt
      obtain ⟨hafter, hout⟩ := servePast_frame hs now n de
      refine steps_of_set (s := l.past[c]) ?_ hafter hout
      rw [servings, List.getElem?_append_left hlt, hs]
    · cases he
  | _ => cases he

/-- With an event that happens to no attempt some may begin to dial, and nothing else changes
about any. -/
structure Begins (l : Loop) (x : Loop × List LoopEffect) : Prop where
  attempt : ∀ q, x.1.attempt? q = l.attempt? q ∨
    l.attempt? q = none ∧ ∃ d deadline, x.1.attempt? q = some d ∧ d.stage = .dialingData deadline
  silent : ∀ key, outgoing x.2 key = []

theorem Rests.begins {x : Loop × List LoopEffect} (h : l.Rests x) : l.Begins x :=
  ⟨fun q => .inl (h.attempt q), h.silent⟩

/-- The attempts on a control connection that is served, when some may begin. -/
theorem begins_of_asks {s : Serving} {x : Loop × List LoopEffect} {y : Serving × List ServingEffect}
    {before : List Serving} (hservings : l.servings = before ++ [s]) (hasks : s.Asks y)
    (hafter : x.1.servings = before ++ [y.1]) (hout : ∀ key, outgoing x.2 key = carried y.2 key) :
    l.Begins x := by
  obtain ⟨new, hdials, hnew⟩ := hasks.dials
  have hs : l.servings[before.length]? = some s := by rw [hservings, List.getElem?_concat_length]
  have hset : x.1.servings = l.servings.set before.length y.1 := by
    rw [hafter, hservings, List.set_append_right _ _ (Nat.le_refl _), Nat.sub_self]
    rfl
  refine ⟨fun q => ?_, fun key => (hout key).trans (hasks.silent key)⟩
  rw [attempt?_of_set hs hset]
  split
  · rename_i hq
    have hattempt : l.attempt? q = s.dials[q.number]? := by rw [attempt?, hq, hs, Option.bind_some]
    rw [hattempt, hdials]
    rcases Nat.lt_or_ge q.number s.dials.length with hlt | hge
    · exact .inl (List.getElem?_append_left hlt)
    · rw [List.getElem?_append_right hge, List.getElem?_eq_none hge]
      cases hd : new[q.number - s.dials.length]? with
      | none => exact .inl rfl
      | some d =>
        obtain ⟨deadline, hstage⟩ := hnew d (List.mem_of_getElem? hd)
        exact .inr ⟨rfl, d, deadline, rfl, hstage⟩
  · exact .inl rfl

theorem begins_of_new {s : Serving} {x : Loop × List LoopEffect}
    (hafter : x.1.servings = l.servings ++ [s])
    (hnew : ∀ d ∈ s.dials, ∃ deadline, d.stage = .dialingData deadline)
    (hsilent : ∀ key, outgoing x.2 key = []) : l.Begins x := by
  refine ⟨fun q => ?_, hsilent⟩
  rw [attempt?, attempt?, hafter]
  rcases Nat.lt_trichotomy q.connection l.servings.length with hlt | heq | hgt
  · rw [List.getElem?_append_left hlt]
    exact .inl rfl
  · rw [heq, List.getElem?_concat_length, List.getElem?_eq_none (Nat.le_refl _), Option.bind_none,
      Option.bind_some]
    cases hd : s.dials[q.number]? with
    | none => exact .inl rfl
    | some d =>
      obtain ⟨deadline, hstage⟩ := hnew d (List.mem_of_getElem? hd)
      exact .inr ⟨rfl, d, deadline, rfl, hstage⟩
  · left
    rw [List.getElem?_eq_none (Nat.le_of_lt hgt), List.getElem?_eq_none]
    rw [List.length_append, List.length_singleton]
    exact hgt

/-- An event that happens to no attempt leaves all of them as they are, and may begin some. -/
theorem step_of_other (a : Seal.Aead) (now : Nat) (he : l.dial? e = none) :
    l.Begins (l.step a now e) := by
  have hstay : l.Begins (l, []) := Rests.begins ⟨fun _ => rfl, fun _ => rfl⟩
  have hidle : ∀ {x : Loop × List LoopEffect}, l.servings = l.past → x.1.servings = l.past →
      (∀ key, outgoing x.2 key = []) → l.Begins x := fun hl hx hsilent =>
    (rests_of_servings (hx.trans hl.symm) hsilent).begins
  cases e with
  | go =>
    rw [step, go]
    split
    · rename_i hready
      have hl := servings_of_idle fun s hs => by cases hready.symm.trans hs
      split
      · obtain ⟨hpast, -, hsilent⟩ := publish_frame l .disconnected
        exact hidle hl ((servings_of_idle fun _ h => by cases h).trans hpast) hsilent
      · obtain ⟨hpast, -, hsilent⟩ := publish_frame l .connecting
        refine hidle hl ((servings_of_idle fun _ h => by cases h).trans hpast) fun key => ?_
        rw [outgoing_append, hsilent]
        rfl
    · exact hstay
  | dialed success =>
    rw [step, dialed]
    split
    · rename_i hdialing
      have hl := servings_of_idle fun s hs => by cases hdialing.symm.trans hs
      split
      · -- the connection is new, and so is every attempt on it
        let x := Serving.start l.options now
        obtain ⟨⟨new, hdials, hnew⟩, hsilent⟩ : ({ session := .start l.options } : Serving).Asks x :=
          Serving.asks_performAll l.options now _ _
        refine begins_of_new (s := x.1) ?_ ?_ fun key => ((absorb_frame _ _).2.2 key).trans (hsilent key)
        · rw [servings_absorb, hl]
          rfl
        · rw [hdials]
          exact hnew
      · obtain ⟨hrest, hsilent⟩ := rest_frame l now
        exact hidle hl hrest hsilent
    · exact hstay
  | serving y =>
    have hy : y.attempt? = none := by
      cases y with
      | dial n de => cases he
      | _ => rfl
    rw [step]
    cases hphase : l.phase with
    | serving s =>
      obtain ⟨hafter, hout⟩ := serve_frame hphase a now y
      exact begins_of_asks (servings_of_serving hphase) (s.asks_step l.options a now hy) hafter hout
    | _ =>
      rw [serve, hphase]
      exact hstay
  | past c n de =>
    simp only [dial?] at he
    split at he
    · cases he
    · rename_i hge
      rw [step, servePast, List.getElem?_eq_none (Nat.le_of_not_lt hge)]
      exact hstay
  | wake =>
    rw [step, wake]
    split
    · rename_i till hresting
      have hl := servings_of_idle fun s hs => by cases hresting.symm.trans hs
      split
      · exact hidle hl (servings_of_idle fun _ h => by cases h) fun _ => rfl
      · exact hstay
    · exact hstay
  | shutDown =>
    rw [step, beginShutDown]
    split
    · rename_i till hresting
      have hl := servings_of_idle fun s hs => by cases hresting.symm.trans hs
      exact hidle hl (servings_of_idle fun _ h => by cases h) fun _ => rfl
    · exact Rests.begins ⟨fun _ => rfl, fun _ => rfl⟩

theorem dial?_event (l : Loop) (p : Attempt) (de : DialEvent) (hp : (l.attempt? p).isSome) :
    l.dial? (l.event p de) = some (p, de) := by
  unfold event
  split
  · rename_i hlt
    simp only [dial?, if_pos hlt]
  · rename_i hge
    -- the attempt is on the connection that is served now
    have hconnection : p.connection = l.past.length := by
      by_contra hne
      have hnone : l.servings[p.connection]? = none := by
        apply List.getElem?_eq_none
        unfold servings
        split <;> simp only [List.length_append, List.length_cons, List.length_nil] <;> omega
      rw [attempt?, hnone] at hp
      cases hp
    simp only [dial?, ← hconnection]

end Loop

end ReverseTunnel.Client

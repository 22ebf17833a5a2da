import ReverseTunnel.Proofs.Client.Attempts
import ReverseTunnel.Proofs.Client.Serving
import ReverseTunnel.Proofs.Course

/-!
The control connections of a client, each by itself.

A client numbers its control connections in the order in which it makes them. On each of
them things happen at the times of the client's clock, and what becomes of it depends on
nothing else: from the moment on at which it is made it is at the moments of a course of its
own (`alone`), which starts from the client's options and goes on when the connection is
finished (`servings_alone`). And every connection that a client has was made at some moment
(`made_of_servings`). No more than one of them is not finished (`number_of_unfinished`).
-/

namespace ReverseTunnel.Client

open Control

variable {o : Options} {a : Seal.Aead}

namespace Loop

/-- Something happens to a client at a time. -/
def stepAt (a : Seal.Aead) (l : Loop) (e : Nat × LoopEvent) : Loop × List LoopEffect :=
  l.step a e.1 e.2

/-- What happens on a control connection with an event. -/
def eventOn? (l : Loop) (k : Nat) : LoopEvent → Option ServingEvent
  | .serving e => if k = l.past.length then some e else none
  | .past c n de => if c = k ∧ k < l.past.length then some (.dial n de) else none
  | _ => none

/-- An event on a control connection on which nothing happens. -/
def idle : ServingEvent := .link (.transmit 0)

theorem step_idle (o : Options) (a : Seal.Aead) (now : Nat) (s : Serving) :
    s.step o a now idle = (s, []) := by
  have hrests : s.link.step (.transmit 0) = (s.link, []) := if_pos (by simp)
  simp only [Serving.step, idle, hrests]
  rfl

/-! ## What a step does to the connections -/

variable {l : Loop} {e : LoopEvent} {s : Serving} {k now : Nat}

/-- A client that is dialing makes its next connection if the server accepts. -/
def Makes (l : Loop) (e : LoopEvent) : Prop := l.phase = .dialing ∧ e = .dialed true

/-- What a step can do to the connections: one is made, something happens on one, or nothing
happens on any. -/
inductive Touches (a : Seal.Aead) (now : Nat) (l : Loop) (e : LoopEvent) : List Serving → Prop
  | makes (h : l.Makes e) : Touches a now l e (l.servings ++ [(Serving.start l.options now).1])
  | goesOn (c : Nat) (s : Serving) (y : ServingEvent) (hs : l.servings[c]? = some s)
      (hon : ∀ k, l.eventOn? k e = if k = c then some y else none) :
      Touches a now l e (l.servings.set c (s.step l.options a now y).1)
  | rests (hnone : ∀ k < l.servings.length, l.eventOn? k e = none) : Touches a now l e l.servings

theorem touches_idle {x : Loop} (hl : ∀ s, l.phase ≠ .serving s) (hx : ∀ s, x.phase ≠ .serving s)
    (hpast : x.past = l.past) (hnone : ∀ k, l.eventOn? k e = none) : Touches a now l e x.servings := by
  rw [servings_of_idle hx, hpast, ← servings_of_idle hl]
  exact .rests fun k _ => hnone k

theorem servings_of_makes (h : l.Makes e) (a : Seal.Aead) (now : Nat) :
    (l.step a now e).1.servings = l.servings ++ [(Serving.start l.options now).1] ∧
      l.servings = l.past := by
  obtain ⟨hdialing, rfl⟩ := h
  have hidle := servings_of_idle fun s hs => by cases hdialing.symm.trans hs
  refine ⟨?_, hidle⟩
  simp only [step, dialed, hdialing, if_true]
  rw [servings_absorb, hidle]
  rfl

theorem touches_dialed (a : Seal.Aead) (now : Nat) (l : Loop) (success : Bool) :
    Touches a now l (.dialed success) (l.step a now (.dialed success)).1.servings := by
  cases hphase : l.phase with
  | dialing =>
    cases success with
    | true =>
      rw [(servings_of_makes ⟨hphase, rfl⟩ a now).1]
      exact .makes ⟨hphase, rfl⟩
    | false =>
      have hrest : (l.step a now (.dialed false)).1.servings = l.servings := by
        simp only [step, dialed, hphase, Bool.false_eq_true, if_false]
        rw [(rest_frame l now).1, servings_of_idle fun s hs => by cases hphase.symm.trans hs]
      rw [hrest]
      exact .rests fun _ _ => rfl
  | _ =>
    simp only [step, dialed, hphase]
    exact .rests fun _ _ => rfl

theorem touches_serve (a : Seal.Aead) (now : Nat) (l : Loop) (y : ServingEvent) :
    Touches a now l (.serving y) (l.step a now (.serving y)).1.servings := by
  cases hphase : l.phase with
  | serving s =>
    have hservings := servings_of_serving hphase
    have hset : (l.step a now (.serving y)).1.servings =
        l.servings.set l.past.length (s.step l.options a now y).1 := by
      rw [step, (serve_frame hphase a now y).1, hservings, List.set_append_right _ _ (Nat.le_refl _),
        Nat.sub_self]
      rfl
    rw [hset]
    exact .goesOn _ s y (by rw [hservings, List.getElem?_concat_length]) fun _ => rfl
  | _ =>
    -- no connection is served, so that none has the next number
    have hidle := servings_of_idle (l := l) fun s hs => by cases hphase.symm.trans hs
    simp only [step, serve, hphase]
    exact .rests fun k hk => if_neg (Nat.ne_of_lt (hidle ▸ hk))

theorem touches_servePast (a : Seal.Aead) (now : Nat) (l : Loop) (c n : Nat) (de : DialEvent) :
    Touches a now l (.past c n de) (l.step a now (.past c n de)).1.servings := by
  rw [step]
  cases hc : l.past[c]? with
  | none =>
    have hge : l.past.length ≤ c := List.getElem?_eq_none_iff.mp hc
    simp only [servePast, hc]
    refine .rests fun k _ => if_neg ?_
    omega
  | some s =>
    have hlt : c < l.past.length := (List.getElem?_eq_some_iff.mp hc).1
    rw [(servePast_frame hc now n de).1]
    refine .goesOn c s (.dial n de) ?_ fun k => ?_
    · rw [servings, List.getElem?_append_left hlt, hc]
    · by_cases hk : k = c
      · subst hk
        simp only [eventOn?, hlt, and_self, if_true]
      · simp only [eventOn?, Ne.symm hk, false_and, if_false, hk]

theorem touches (a : Seal.Aead) (now : Nat) (l : Loop) (e : LoopEvent) :
    Touches a now l e (l.step a now e).1.servings := by
  have hstays : (∀ k, l.eventOn? k e = none) → Touches a now l e l.servings :=
    fun hnone => .rests fun k _ => hnone k
  cases e with
  | go =>
    rw [step, go]
    split
    · rename_i hready
      have hl : ∀ s, l.phase ≠ .serving s := fun s hs => by cases hready.symm.trans hs
      split
      · exact touches_idle hl (fun _ h => by cases h) (publish_frame l .disconnected).1 fun _ => rfl
      · exact touches_idle hl (fun _ h => by cases h) (publish_frame l .connecting).1 fun _ => rfl
    · exact hstays fun _ => rfl
  | dialed success => exact touches_dialed a now l success
  | serving y => exact touches_serve a now l y
  | past c n de => exact touches_servePast a now l c n de
  | wake =>
    rw [step, wake]
    split
    · rename_i till hresting
      split
      · exact touches_idle (fun s hs => by cases hresting.symm.trans hs) (fun _ h => by cases h) rfl
          fun _ => rfl
      · exact hstays fun _ => rfl
    · exact hstays fun _ => rfl
  | shutDown =>
    rw [step, beginShutDown]
    split
    · rename_i till hresting
      exact touches_idle (fun s hs => by cases hresting.symm.trans hs) (fun _ h => by cases h) rfl
        fun _ => rfl
    · exact hstays fun _ => rfl

/-- A step of a client is on each of its connections a step of that connection. -/
theorem servings_step (hs : l.servings[k]? = some s) (a : Seal.Aead) (now : Nat) (e : LoopEvent) :
    (l.step a now e).1.servings[k]? =
      some (s.step l.options a now ((l.eventOn? k e).getD idle)).1 := by
  have hlt := (List.getElem?_eq_some_iff.mp hs).1
  have ht := touches a now l e
  generalize (l.step a now e).1.servings = after at ht
  cases ht with
  | makes h =>
    rw [h.2]
    show _ = some (s.step l.options a now idle).1
    rw [List.getElem?_append_left hlt, step_idle, hs]
  | goesOn c s' y hs' hon =>
    rw [hon, List.getElem?_set]
    by_cases hk : k = c
    · subst hk
      cases hs.symm.trans hs'
      rw [if_pos rfl, if_pos hlt, if_pos rfl, Option.getD_some]
    · rw [if_neg (Ne.symm hk), if_neg hk, Option.getD_none, step_idle, hs]
  | rests hnone => rw [hnone k hlt, Option.getD_none, step_idle, hs]

theorem makes_of_new (hnone : l.servings[k]? = none) (hs : (l.step a now e).1.servings[k]? = some s) :
    l.Makes e ∧ k = l.past.length ∧ s = (Serving.start l.options now).1 := by
  have hge : l.servings.length ≤ k := List.getElem?_eq_none_iff.mp hnone
  have ht := touches a now l e
  generalize (l.step a now e).1.servings = after at ht hs
  have hlt := (List.getElem?_eq_some_iff.mp hs).1
  cases ht with
  | makes h =>
    have hidle := servings_of_idle fun s hs => by cases h.1.symm.trans hs
    rw [List.length_append, List.length_singleton] at hlt
    obtain rfl : k = l.servings.length := by omega
    rw [List.getElem?_concat_length] at hs
    exact ⟨h, congrArg List.length hidle, (Option.some.inj hs).symm⟩
  | goesOn =>
    rw [List.length_set] at hlt
    omega
  | rests => omega

/-! ## What no step changes -/

theorem publish_eq (l : Loop) (s : State) : (l.publish s).1 = { l with state := s } := by
  unfold publish
  split
  · rename_i h
    rw [← h]
  · rfl

/-- What a connection publishes changes nothing but the state. -/
theorem absorb_eq (fx : List ServingEffect) : ∀ l : Loop,
    ∃ s, (l.absorb fx).1 = { l with state := s } := by
  induction fx with
  | nil => exact fun l => ⟨l.state, rfl⟩
  | cons x rest ih =>
    intro l
    cases x with
    | publish s =>
      obtain ⟨s', hs'⟩ := ih (l.publish s).1
      exact ⟨s', hs'.trans (by rw [publish_eq])⟩
    | link _ | dial _ _ => exact ih l

/-- The options stay, and the connections that are finished stay finished. -/
structure Keeps (l l' : Loop) : Prop where
  options : l'.options = l.options
  past : l.past.length ≤ l'.past.length

theorem Keeps.trans {l' l'' : Loop} (h : l.Keeps l') (h' : l'.Keeps l'') : l.Keeps l'' :=
  ⟨h'.options.trans h.options, Nat.le_trans h.past h'.past⟩

theorem keeps_refl (l : Loop) : l.Keeps l := ⟨rfl, Nat.le_refl _⟩

theorem keeps_publish (l : Loop) (s : State) : l.Keeps (l.publish s).1 := by
  rw [publish_eq]
  exact ⟨rfl, Nat.le_refl _⟩

theorem keeps_absorb (l : Loop) (fx : List ServingEffect) : l.Keeps (l.absorb fx).1 := by
  obtain ⟨s, hs⟩ := absorb_eq fx l
  rw [hs]
  exact ⟨rfl, Nat.le_refl _⟩

theorem keeps_rest (l : Loop) (now : Nat) : l.Keeps (l.rest now).1 := by
  have h := keeps_publish l .disconnected
  exact ⟨h.options, h.past⟩

theorem keeps_serve (l : Loop) (a : Seal.Aead) (now : Nat) (y : ServingEvent) :
    l.Keeps (l.serve a now y).1 := by
  unfold serve
  split
  · rename_i s _
    let x := s.step l.options a now y
    let absorbed := (Loop.absorb { l with phase := .serving x.1 } x.2).1
    let finished : Loop := { absorbed with past := absorbed.past ++ [x.1] }
    have habsorbed : l.Keeps absorbed := by
      have h := keeps_absorb { l with phase := .serving x.1 } x.2
      exact ⟨h.options, h.past⟩
    have hfinished : absorbed.Keeps finished := ⟨rfl, List.length_append ▸ Nat.le_add_right _ _⟩
    dsimp only
    split
    · exact habsorbed.trans (hfinished.trans (keeps_rest finished now))
    · exact habsorbed
  · exact keeps_refl l

theorem keeps_step (l : Loop) (a : Seal.Aead) (now : Nat) (e : LoopEvent) :
    l.Keeps (l.step a now e).1 := by
  cases e with
  | go =>
    rw [step, go]
    split
    · split
      · have h := keeps_publish l .disconnected
        exact ⟨h.options, h.past⟩
      · have h := keeps_publish l .connecting
        exact ⟨h.options, h.past⟩
    · exact keeps_refl l
  | dialed success =>
    rw [step, dialed]
    split
    · split
      · have h := keeps_absorb { l with
          backoff := l.backoff.reset, phase := .serving (Serving.start l.options now).1 }
          (Serving.start l.options now).2
        exact ⟨h.options, h.past⟩
      · exact keeps_rest l now
    · exact keeps_refl l
  | serving y => exact keeps_serve l a now y
  | past c n de =>
    rw [step, servePast]
    split
    · exact keeps_refl l
    · rename_i s _
      have h := keeps_absorb { l with past := l.past.set c (s.dial now n de).1 } (s.dial now n de).2
      exact ⟨h.options, List.length_set ▸ h.past⟩
  | wake =>
    rw [step, wake]
    split
    · split <;> exact ⟨rfl, Nat.le_refl _⟩
    · exact keeps_refl l
  | shutDown =>
    rw [step, beginShutDown]
    split <;> exact ⟨rfl, Nat.le_refl _⟩

/-! ## What is finished -/

theorem stage_dial (o : Options) (a : Seal.Aead) (now : Nat) (s : Serving) (n : Nat)
    (de : DialEvent) : (s.dial now n de).1.link.stage = s.link.stage := by
  have ht := Serving.link_turn o a now s (.dial n de)
  rw [Serving.step] at ht
  generalize (s.dial now n de).1.link = after at ht ⊢
  cases ht with
  | emits => exact (Link.aside_emitAll _ s.link).stage

theorem past_rest (l : Loop) (now : Nat) : (l.rest now).1.past = l.past :=
  (publish_frame l .disconnected).1

theorem finished_step (a : Seal.Aead) (now : Nat) (h : ∀ s ∈ l.past, s.link.stage = .finished)
    (e : LoopEvent) : ∀ s ∈ (l.step a now e).1.past, s.link.stage = .finished := by
  cases e with
  | go =>
    rw [step, go]
    split
    · split
      · simp only [publish_eq]
        exact h
      · simp only [publish_eq]
        exact h
    · exact h
  | dialed success =>
    rw [step, dialed]
    split
    · split
      · rw [(absorb_frame _ _).1]
        exact h
      · rw [past_rest]
        exact h
    · exact h
  | serving y =>
    rw [step, serve]
    split
    · rename_i s hserving
      dsimp only
      split
      · rename_i hfinished
        rw [past_rest]
        dsimp only
        rw [(absorb_frame _ _).1]
        intro s' hs'
        obtain hs' | hs' := List.mem_append.mp hs'
        · exact h s' hs'
        · rw [List.mem_singleton.mp hs']
          exact hfinished
      · rw [(absorb_frame _ _).1]
        exact h
    · exact h
  | past c n de =>
    rw [step, servePast]
    split
    · exact h
    · rename_i s hs
      dsimp only
      rw [(absorb_frame _ _).1]
      intro s' hs'
      obtain hs' | rfl := List.mem_or_eq_of_mem_set hs'
      · exact h s' hs'
      · rw [stage_dial l.options a]
        exact h s (List.mem_of_getElem? hs)
  | wake =>
    rw [step, wake]
    split
    · split <;> exact h
    · exact h
  | shutDown =>
    rw [step, beginShutDown]
    split <;> exact h

/-! ## At every moment -/

section Moments

variable (course : Course (stepAt a) (start o))

theorem number_of_unfinished (n : Nat) {k : Nat} {s : Serving}
    (hs : (course.state n).servings[k]? = some s) (hopen : s.link.stage ≠ .finished) :
    k = (course.state n).past.length ∧ (course.state n).phase = .serving s := by
  have hpast : ∀ s ∈ (course.state n).past, s.link.stage = .finished :=
    course.always (P := fun l => ∀ s ∈ l.past, s.link.stage = .finished) nofun
      (fun l e h => finished_step a e.1 h e.2) n
  cases hphase : (course.state n).phase with
  | serving s' =>
    rw [servings_of_serving hphase] at hs
    rcases Nat.lt_or_ge k (course.state n).past.length with hk | hk
    · rw [List.getElem?_append_left hk] at hs
      exact absurd (hpast s (List.mem_of_getElem? hs)) hopen
    · have hlt := (List.getElem?_eq_some_iff.mp hs).1
      rw [List.length_append, List.length_singleton] at hlt
      obtain rfl : k = (course.state n).past.length := by omega
      rw [List.getElem?_concat_length] at hs
      exact ⟨rfl, congrArg Phase.serving (Option.some.inj hs)⟩
  | _ =>
    rw [servings_of_idle fun s' hs' => by cases hphase.symm.trans hs'] at hs
    exact absurd (hpast s (List.mem_of_getElem? hs)) hopen

theorem options_eq (n : Nat) : (course.state n).options = o :=
  course.always (P := fun l => l.options = o) rfl
    (fun l e h => (keeps_step l a e.1 e.2).options.trans h) n

/-- The connection of that number is made at a moment. -/
structure Made (k m : Nat) : Prop where
  makes : (course.state m).Makes (course.happens m).2
  number : k = (course.state m).past.length

/-- What happens on the connection of that number, made at a moment, from then on. -/
def alone (k m : Nat) : Course (Serving.stepAt o a) (Serving.start o (course.happens m).1).1 :=
  ⟨fun i => ((course.happens (m + 1 + i)).1,
    ((course.state (m + 1 + i)).eventOn? k (course.happens (m + 1 + i)).2).getD idle)⟩

variable {course}

/-- A connection is, from the moment on at which it is made, where its own course is. -/
theorem servings_alone {k m : Nat} (h : Made course k m) (i : Nat) :
    (course.state (m + 1 + i)).servings[k]? = some ((alone course k m).state i) := by
  induction i with
  | zero =>
    obtain ⟨hnew, hidle⟩ := servings_of_makes h.makes a (course.happens m).1
    show ((course.state m).step a _ _).1.servings[k]? = _
    rw [hnew, hidle, options_eq, h.number, List.getElem?_concat_length]
    rfl
  | succ i ih =>
    have hnext := servings_step ih a (course.happens (m + 1 + i)).1 (course.happens (m + 1 + i)).2
    rw [options_eq] at hnext
    exact hnext

/-- Every connection that a client has was made before. -/
theorem made_of_servings {n k : Nat} {s : Serving} (hs : (course.state n).servings[k]? = some s) :
    ∃ m i, n = m + 1 + i ∧ Made course k m := by
  induction n generalizing s with
  | zero => cases hs
  | succ n ih =>
    cases hbefore : (course.state n).servings[k]? with
    | some s' =>
      obtain ⟨m, i, rfl, hmade⟩ := ih hbefore
      exact ⟨m, i + 1, rfl, hmade⟩
    | none =>
      obtain ⟨hmakes, hk, -⟩ := makes_of_new hbefore hs
      exact ⟨n, 0, rfl, hmakes, hk⟩

end Moments

end Loop

end ReverseTunnel.Client

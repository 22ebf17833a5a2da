import ReverseTunnel.Proofs.Client.Connections
import ReverseTunnel.Proofs.Client.Knowledge

/-!
How a client stands with its server.

The states that a client publishes are a path along the allowed changes (`Path`), for in
every phase of its loop it is in a state of that phase: while a connection is served it is
authenticated exactly if an approval was handled on this very connection, and otherwise not
yet; it is connecting while it dials, and disconnected in between and once it has stopped
(`Stands`).
-/

namespace ReverseTunnel.Client

open Control
open Wire (Message)

/-! ## Paths of states -/

/-- The changes of state that are allowed. -/
inductive Follows : State → State → Prop
  | connects : Follows .disconnected .connecting
  | fails : Follows .connecting .disconnected
  | reaches : Follows .connecting .connectedUnauth
  | loses : Follows .connectedUnauth .disconnected
  | approved : Follows .connectedUnauth .authenticated
  | ends : Follows .authenticated .disconnected

/-- States that lead from one to another, each following the one before. -/
inductive Path : State → List State → State → Prop
  | here (s : State) : Path s [] s
  | goes {s s' t : State} {states : List State} (h : Follows s s') (rest : Path s' states t) :
      Path s (s' :: states) t

theorem Path.trans {s t u : State} {states states' : List State} (h : Path s states t)
    (h' : Path t states' u) : Path s (states ++ states') u := by
  induction h with
  | here => exact h'
  | goes h _ ih => exact .goes h (ih h')

/-- The states that a client publishes. -/
def statesOf (fx : List LoopEffect) : List State :=
  fx.filterMap fun | .published s => some s | _ => none

theorem statesOf_append (fx fy : List LoopEffect) :
    statesOf (fx ++ fy) = statesOf fx ++ statesOf fy := List.filterMap_append

namespace Loop

variable {l : Loop} {s : State} {fx : List ServingEffect}

theorem path_publish (h : l.state = s ∨ Follows l.state s) :
    Path l.state (statesOf (l.publish s).2) s := by
  unfold publish
  split
  · rename_i hsame
    rw [hsame]
    exact .here s
  · rename_i hother
    exact .goes (h.resolve_left hother) (.here s)

theorem absorb_none (fx : List ServingEffect) : ∀ l : Loop, published fx = [] →
    (l.absorb fx).1 = l ∧ statesOf (l.absorb fx).2 = [] := by
  induction fx with
  | nil => exact fun l _ => ⟨rfl, rfl⟩
  | cons x rest ih =>
    intro l h
    cases x with
    | publish s => cases h
    | link _ | dial _ _ => exact ih l h

theorem absorb_one (fx : List ServingEffect) : ∀ l : Loop, published fx = [s] →
    (l.absorb fx).1 = { l with state := s } ∧ statesOf (l.absorb fx).2 = statesOf (l.publish s).2 := by
  induction fx with
  | nil => exact fun l h => by cases h
  | cons x rest ih =>
    intro l h
    cases x with
    | publish s' =>
      obtain ⟨rfl, hrest⟩ : s' = s ∧ published rest = [] := List.cons.inj h
      obtain ⟨hstate, hnone⟩ := absorb_none rest (l.publish s').1 hrest
      refine ⟨?_, ?_⟩
      · show ((l.publish s').1.absorb rest).1 = _
        rw [hstate, publish_eq]
      · show statesOf ((l.publish s').2 ++ ((l.publish s').1.absorb rest).2) = _
        rw [statesOf_append, hnone, List.append_nil]
    | link _ | dial _ _ => exact ih l h

/-! ## The state of a phase -/

/-- The state of a client in a phase, by whether it was approved on the connection that is
served. -/
def stateIn (approved : Bool) : Phase → State
  | .serving _ => if approved then .authenticated else .connectedUnauth
  | .dialing => .connecting
  | _ => .disconnected

/-- Whether an approval is handled with an event on the connection that is served. -/
def approvesOn (s : Serving) : LoopEvent → Bool
  | .serving y => (s.handledAt y).any approves
  | _ => false

/-- Whether a client was approved on the connection that is served, after an event. -/
def approvedAfter (l : Loop) (approved : Bool) (e : LoopEvent) : Bool :=
  match l.phase with
  | .serving s => approved || approvesOn s e
  | _ => false

/-- A client is in the state of its phase, and got there by states that follow each other. -/
structure Stands (before : State) (approved : Bool) (x : Loop × List LoopEffect) : Prop where
  state : x.1.state = stateIn approved x.1.phase
  path : Path before (statesOf x.2) x.1.state

theorem stands_rest {l : Loop} (h : l.state = .disconnected ∨ Follows l.state .disconnected)
    (now : Nat) (approved : Bool) : Stands l.state approved (l.rest now) := by
  have hstate : (l.rest now).1.state = .disconnected := by
    show (l.publish .disconnected).1.state = _
    rw [publish_eq]
  refine ⟨?_, ?_⟩
  · rw [hstate]
    show _ = stateIn approved (if (l.publish .disconnected).1.shutDown then .stopped else .resting _)
    split <;> rfl
  · rw [hstate]
    exact path_publish h

theorem follows_stateIn (approved : Bool) (p : Phase) :
    stateIn approved p = .disconnected ∨ Follows (stateIn approved p) .disconnected := by
  cases p with
  | serving s => cases approved <;> first | exact .inr .loses | exact .inr .ends
  | dialing => exact .inr .fails
  | _ => exact .inl rfl

theorem absorb_verdict {l : Loop} {s : Serving} {fx : List ServingEffect} {approved more : Bool}
    (hphase : l.phase = .serving s) (hstate : l.state = stateIn approved l.phase)
    (hfx : published fx = if more then [.authenticated] else []) :
    Stands l.state (approved || more) (l.absorb fx) := by
  cases more with
  | false =>
    obtain ⟨hsame, hnone⟩ := absorb_none fx l hfx
    rw [Bool.or_false]
    refine ⟨by rw [hsame]; exact hstate, ?_⟩
    rw [hsame, hnone]
    exact .here _
  | true =>
    obtain ⟨hnew, hpublished⟩ := absorb_one fx l hfx
    rw [Bool.or_true]
    refine ⟨by rw [hnew, hphase]; rfl, ?_⟩
    rw [hnew, hpublished]
    apply path_publish
    rw [hstate, hphase]
    cases approved with
    | true => exact .inl rfl
    | false => exact .inr .approved

theorem stands_serve {l : Loop} {s : Serving} {approved : Bool} (hphase : l.phase = .serving s)
    (hstate : l.state = stateIn approved l.phase) (a : Seal.Aead) (now : Nat) (y : ServingEvent) :
    Stands l.state (approved || (s.handledAt y).any approves) (l.serve a now y) := by
  let x := s.step l.options a now y
  have hstate' : l.state = stateIn approved (.serving x.1) := by rw [hstate, hphase]; rfl
  have habsorbed := absorb_verdict (l := { l with phase := .serving x.1 }) rfl hstate'
    (Serving.turn l.options a now s y).states
  simp only [serve, hphase]
  split
  · -- the connection is finished, and the client rests
    have hrest := stands_rest (l := { (Loop.absorb { l with phase := .serving x.1 } x.2).1 with
        past := (Loop.absorb { l with phase := .serving x.1 } x.2).1.past ++ [x.1] })
      (habsorbed.state ▸ follows_stateIn _ _) now (approved || (s.handledAt y).any approves)
    exact ⟨hrest.state, statesOf_append _ _ ▸ habsorbed.path.trans hrest.path⟩
  · exact habsorbed

theorem stands_dialed {l : Loop} {approved : Bool} (hphase : l.phase = .dialing)
    (hstate : l.state = stateIn approved l.phase) (now : Nat) (success : Bool) :
    Stands l.state false (l.dialed now success) := by
  simp only [dialed, hphase]
  cases success with
  | true =>
    have hgreets : published (Serving.start l.options now).2 = [.connectedUnauth] :=
      (Serving.performs_performAll l.options now (Session.greeting l.options) _).states
    let made : Loop :=
      { l with backoff := l.backoff.reset, phase := .serving (Serving.start l.options now).1 }
    obtain ⟨hnew, hpublished⟩ := absorb_one _ made hgreets
    have hfollows : Follows made.state .connectedUnauth := by
      show Follows l.state _
      rw [hstate, hphase]
      exact .reaches
    rw [if_pos rfl]
    change Stands made.state false (made.absorb _)
    refine ⟨by rw [hnew]; rfl, ?_⟩
    rw [hnew, hpublished]
    exact path_publish (.inr hfollows)
  | false =>
    rw [if_neg Bool.false_ne_true]
    exact stands_rest (hstate ▸ follows_stateIn _ _) now false

theorem stands_go {l : Loop} {approved : Bool} (hphase : l.phase = .ready)
    (hstate : l.state = stateIn approved l.phase) : Stands l.state false l.go := by
  have hdisconnected : l.state = .disconnected := by rw [hstate, hphase]; rfl
  simp only [go, hphase]
  split
  · refine ⟨by rw [publish_eq]; rfl, ?_⟩
    show Path _ (statesOf (l.publish .disconnected).2) (l.publish .disconnected).1.state
    rw [publish_eq]
    exact path_publish (.inl hdisconnected)
  · refine ⟨by rw [publish_eq]; rfl, ?_⟩
    show Path _ (statesOf ((l.publish .connecting).2 ++ [.dial _])) (l.publish .connecting).1.state
    rw [statesOf_append, publish_eq]
    show Path _ (_ ++ []) _
    rw [List.append_nil]
    exact path_publish (.inr (hdisconnected ▸ .connects))

theorem stands_servePast {l : Loop} {approved : Bool} (hstate : l.state = stateIn approved l.phase)
    (now c n : Nat) (de : DialEvent) : Stands l.state approved (l.servePast now c n de) := by
  unfold servePast
  split
  · exact ⟨hstate, .here _⟩
  · rename_i s _
    obtain ⟨hsame, hnone⟩ := absorb_none (s.dial now n de).2
      { l with past := l.past.set c (s.dial now n de).1 } (Serving.turn_dial l.options now n de s).states
    refine ⟨by rw [hsame]; exact hstate, ?_⟩
    rw [hsame, hnone]
    exact .here _

/-- What does not happen on the connection that is served approves nobody. -/
theorem stateIn_after {l : Loop} {approved : Bool} (hstate : l.state = stateIn approved l.phase)
    {e : LoopEvent} (he : ∀ s, approvesOn s e = false) :
    l.state = stateIn (l.approvedAfter approved e) l.phase := by
  rw [hstate]
  cases hphase : l.phase with
  | serving s => simp only [approvedAfter, hphase, he, Bool.or_false]
  | _ => rfl

/-- Every step leads from the state of a phase to the state of the next. -/
theorem stands_step {l : Loop} {approved : Bool} (hstate : l.state = stateIn approved l.phase)
    (a : Seal.Aead) (now : Nat) (e : LoopEvent) :
    Stands l.state (l.approvedAfter approved e) (l.step a now e) := by
  have hstays : (∀ s, approvesOn s e = false) → Stands l.state (l.approvedAfter approved e) (l, []) :=
    fun he => ⟨stateIn_after hstate he, .here _⟩
  cases e with
  | go =>
    cases hphase : l.phase with
    | ready =>
      have hnone : l.approvedAfter approved .go = false := by simp only [approvedAfter, hphase]
      rw [hnone]
      exact stands_go hphase hstate
    | _ =>
      simp only [step, go, hphase]
      exact hstays fun _ => rfl
  | dialed success =>
    cases hphase : l.phase with
    | dialing =>
      have hnone : l.approvedAfter approved (.dialed success) = false := by
        simp only [approvedAfter, hphase]
      rw [hnone]
      exact stands_dialed hphase hstate now success
    | _ =>
      simp only [step, dialed, hphase]
      exact hstays fun _ => rfl
  | serving y =>
    cases hphase : l.phase with
    | serving s =>
      have hafter : l.approvedAfter approved (.serving y) =
          (approved || (s.handledAt y).any approves) := by simp only [approvedAfter, hphase, approvesOn]
      rw [hafter]
      exact stands_serve hphase hstate a now y
    | _ =>
      simp only [step, serve, hphase]
      refine ⟨?_, .here _⟩
      rw [hstate, hphase]
      rfl
  | past c n de => exact stands_servePast (stateIn_after hstate fun _ => rfl) now c n de
  | wake =>
    cases hphase : l.phase with
    | resting till =>
      have hdisconnected : l.state = .disconnected := by rw [hstate, hphase]; rfl
      simp only [step, wake, hphase]
      split
      · exact ⟨hdisconnected, .here _⟩
      · exact hstays fun _ => rfl
    | _ =>
      simp only [step, wake, hphase]
      exact hstays fun _ => rfl
  | shutDown =>
    cases hphase : l.phase with
    | resting till =>
      have hdisconnected : l.state = .disconnected := by rw [hstate, hphase]; rfl
      simp only [step, beginShutDown, hphase]
      exact ⟨hdisconnected, .here _⟩
    | _ =>
      have hafter := stateIn_after hstate (e := .shutDown) fun _ => rfl
      rw [hphase] at hafter
      simp only [step, beginShutDown, hphase]
      exact ⟨hafter, .here _⟩

/-! ## At every moment -/

section Moments

variable {o : Options} {a : Seal.Aead} (course : Course (stepAt a) (start o))

/-- Whether an approval was handled by a moment on the connection that is served then. -/
def approved : Nat → Bool
  | 0 => false
  | n + 1 => (course.state n).approvedAfter (approved n) (course.happens n).2

theorem state_eq (n : Nat) :
    (course.state n).state = stateIn (approved course n) (course.state n).phase := by
  induction n with
  | zero => rfl
  | succ n ih => exact (stands_step ih a (course.happens n).1 (course.happens n).2).state

/-- The states that a client has published lead to the one that it is in. -/
theorem path_of_states (n : Nat) :
    Path .disconnected (statesOf (course.effects n)) (course.state n).state := by
  induction n with
  | zero => exact .here _
  | succ n ih =>
    rw [Course.effects, statesOf_append]
    exact ih.trans (stands_step (state_eq course n) a (course.happens n).1 (course.happens n).2).path

variable {course}

/-- A connection has been served since it was made, as long as it is not finished. -/
theorem serving_before {k m i : Nat} (h : Made course k m)
    (hk : (course.state (m + 1 + (i + 1))).past.length = k) :
    (course.state (m + 1 + i)).phase = .serving ((alone course k m).state i) ∧
      (course.state (m + 1 + i)).past.length = k := by
  have hpast := (keeps_step (course.state (m + 1 + i)) a (course.happens (m + 1 + i)).1
    (course.happens (m + 1 + i)).2).past
  change (course.state (m + 1 + i)).past.length ≤ (course.state (m + 1 + (i + 1))).past.length at hpast
  have halone := servings_alone h i
  have hlt := (List.getElem?_eq_some_iff.mp halone).1
  cases hphase : (course.state (m + 1 + i)).phase with
  | serving s =>
    rw [servings_of_serving hphase] at halone hlt
    rw [List.length_append, List.length_singleton] at hlt
    obtain rfl : (course.state (m + 1 + i)).past.length = k := by omega
    rw [List.getElem?_concat_length] at halone
    exact ⟨congrArg Phase.serving (Option.some.inj halone), rfl⟩
  | _ =>
    rw [servings_of_idle fun s hs => by cases hphase.symm.trans hs] at hlt
    omega

theorem approved_alone {k m : Nat} (h : Made course k m) : ∀ i,
    (course.state (m + 1 + i)).past.length = k →
    approved course (m + 1 + i) = (Serving.handledBefore (alone course k m) i).any approves := by
  intro i
  induction i with
  | zero =>
    intro _
    show (course.state m).approvedAfter _ _ = false
    simp only [approvedAfter, h.makes.1]
  | succ i ih =>
    intro hk
    obtain ⟨hserving, hnumber⟩ := serving_before h hk
    have hbefore := ih hnumber
    show (course.state (m + 1 + i)).approvedAfter _ _ = _
    simp only [approvedAfter, hserving, Serving.handledBefore, List.any_append, ← hbefore]
    congr 1
    -- what happens on the connection is what happens with the event on it
    cases he : (course.happens (m + 1 + i)).2 with
    | serving y => simp only [approvesOn, alone, he, eventOn?, hnumber, if_true, Option.getD_some]
    | past c n de =>
      have hnone : ¬(c = k ∧ k < k) := fun hlt => Nat.lt_irrefl k hlt.2
      simp only [approvesOn, alone, he, eventOn?, hnumber, if_neg hnone, Option.getD_none]
      rfl
    | _ =>
      simp only [approvesOn, alone, he, eventOn?, Option.getD_none]
      rfl

variable (course)

theorem made_of_serving {n : Nat} {s : Serving} (hs : (course.state n).phase = .serving s) :
    ∃ m i, n = m + 1 + i ∧ Made course (course.state n).past.length m ∧
      (alone course (course.state n).past.length m).state i = s ∧
      approved course n =
        (Serving.handledBefore (alone course (course.state n).past.length m) i).any approves := by
  have hserved : (course.state n).servings[(course.state n).past.length]? = some s := by
    rw [servings_of_serving hs, List.getElem?_concat_length]
  obtain ⟨m, i, rfl, hmade⟩ := made_of_servings hserved
  exact ⟨m, i, rfl, hmade, Option.some.inj ((servings_alone hmade i).symm.trans hserved),
    approved_alone hmade i rfl⟩

/-- A client is authenticated only while a connection is served on which an approval was
handled. -/
theorem approved_of_authenticated {n : Nat} (h : (course.state n).state = .authenticated) :
    ∃ m i message, n = m + 1 + i ∧ Made course (course.state n).past.length m ∧
      (course.state n).phase = .serving ((alone course (course.state n).past.length m).state i) ∧
      .authAck true message ∈
        Serving.handledBefore (alone course (course.state n).past.length m) i := by
  rw [state_eq] at h
  cases hphase : (course.state n).phase with
  | serving s =>
    obtain ⟨m, i, hn, hmade, hs, happroved⟩ := made_of_serving course hphase
    rw [hphase] at h
    have hyes : approved course n = true := by
      cases hno : approved course n with
      | true => rfl
      | false =>
        rw [hno] at h
        cases h
    rw [happroved, List.any_eq_true] at hyes
    obtain ⟨verdict, hverdict, hyes⟩ := hyes
    cases verdict with
    | authAck success message =>
      cases success with
      | true => exact ⟨m, i, message, hn, hmade, by rw [hs], hverdict⟩
      | false => cases hyes
    | _ => cases hyes
  | _ =>
    rw [hphase] at h
    cases h

end Moments

end Loop

end ReverseTunnel.Client

/-!
Courses of events: a system that is moved by events, and one event after another
without end.

A finite run is the beginning of a course that goes on with events that change
nothing, so that what holds at every moment of every course holds after every
finite run. `Course.always` is the induction that invariants are proved by, and
`Course.runs_down` the one by which what has to happen is shown to happen.
-/

namespace ReverseTunnel

variable {σ ε φ : Type}

/-- What happens to a system that starts in a given state and whose events each
have effects on the world around it. -/
structure Course (step : σ → ε → σ × List φ) (start : σ) where
  happens : Nat → ε

namespace Course

variable {step : σ → ε → σ × List φ} {start : σ}

/-- The state before the event of a moment. -/
def state (c : Course step start) : Nat → σ
  | 0 => start
  | n + 1 => (step (c.state n) (c.happens n)).1

/-- What the event of a moment does to the world around. -/
def effectsAt (c : Course step start) (n : Nat) : List φ := (step (c.state n) (c.happens n)).2

/-- What was done to the world around before a moment, in order. -/
def effects (c : Course step start) : Nat → List φ
  | 0 => []
  | n + 1 => c.effects n ++ c.effectsAt n

/-- The course in which the given events happen, and then the last one for ever. -/
def of (events : List ε) (last : ε) : Course step start := ⟨fun n => events.getD n last⟩

/-- The course in which the given events happen, and then a number of them in turn, each as
it is at its moment. -/
def thenInTurn (events : List ε) (count : Nat) (turn : Nat → Nat → ε) : Course step start :=
  ⟨fun n => events.getD n (turn n ((n - events.length) % count))⟩

/-- The course that goes on from a moment with one event for ever. -/
def turnedAt (c : Course step start) (m : Nat) (e : ε) : Course step start :=
  ⟨fun n => if n < m then c.happens n else e⟩

variable {c : Course step start} {events : List ε} {last : ε}

theorem state_succ {n : Nat} {e : ε} (he : c.happens n = e) :
    c.state (n + 1) = (step (c.state n) e).1 := by
  rw [state, he]

theorem mem_effects (c : Course step start) {n : Nat} {x : φ} (h : x ∈ c.effects n) :
    ∃ m < n, x ∈ c.effectsAt m := by
  induction n with
  | zero => cases h
  | succ n ih =>
    rcases List.mem_append.mp h with h | h
    · obtain ⟨m, hm, hx⟩ := ih h
      exact ⟨m, Nat.lt_succ_of_lt hm, hx⟩
    · exact ⟨n, Nat.lt_succ_self n, h⟩

/-- Courses in which the same happens before a moment are the same up to it. -/
theorem same_of_happens {c c' : Course step start} {m : Nat}
    (h : ∀ k < m, c'.happens k = c.happens k) {n : Nat} (hn : n ≤ m) :
    c'.state n = c.state n ∧ c'.effects n = c.effects n := by
  induction n with
  | zero => exact ⟨rfl, rfl⟩
  | succ n ih =>
    obtain ⟨hstate, heffects⟩ := ih (Nat.le_of_succ_le hn)
    have hsame := h n hn
    refine ⟨?_, ?_⟩
    · rw [state, hstate, hsame]
      rfl
    · rw [effects, effectsAt, hstate, heffects, hsame]
      rfl

theorem turnedAt_of_le (c : Course step start) (e : ε) {m n : Nat} (hn : n ≤ m) :
    (c.turnedAt m e).state n = c.state n ∧ (c.turnedAt m e).effects n = c.effects n :=
  same_of_happens (fun _ hk => if_pos hk) hn

theorem happens_turnedAt (c : Course step start) (m : Nat) (e : ε) :
    (c.turnedAt m e).happens m = e := if_neg (Nat.lt_irrefl m)

theorem happens_turnedAt_cases (c : Course step start) (m : Nat) (e : ε) (n : Nat) :
    n < m ∧ (c.turnedAt m e).happens n = c.happens n ∨ m ≤ n ∧ (c.turnedAt m e).happens n = e := by
  rcases Nat.lt_or_ge n m with hn | hn
  · exact .inl ⟨hn, if_pos hn⟩
  · exact .inr ⟨hn, if_neg (Nat.not_lt.mpr hn)⟩

/-- Any event may come next. -/
theorem turnedAt_succ (c : Course step start) (m : Nat) (e : ε) :
    (c.turnedAt m e).state (m + 1) = (step (c.state m) e).1 ∧
      (c.turnedAt m e).effects (m + 1) = c.effects m ++ (step (c.state m) e).2 := by
  obtain ⟨hstate, heffects⟩ := c.turnedAt_of_le e (Nat.le_refl m)
  refine ⟨?_, ?_⟩
  · rw [state, hstate, happens_turnedAt]
  · rw [effects, effectsAt, hstate, heffects, happens_turnedAt]

theorem happens_mem (hc : c = of events last) (n : Nat) : c.happens n ∈ last :: events := by
  subst hc
  show events.getD n last ∈ last :: events
  rw [List.getD_eq_getElem?_getD]
  cases h : events[n]? with
  | none => exact List.mem_cons_self
  | some e => exact List.mem_cons_of_mem _ (List.mem_of_getElem? h)

theorem happens_of_le (hc : c = of events last) {n : Nat} (hn : events.length ≤ n) :
    c.happens n = last := by
  subst hc
  show events.getD n last = last
  rw [List.getD_eq_getElem?_getD, List.getElem?_eq_none hn]
  rfl

section

variable {count : Nat} {turn : Nat → Nat → ε}

theorem turn_of_le (hc : c = thenInTurn events count turn) {n : Nat} (hn : events.length ≤ n) :
    c.happens n = turn n ((n - events.length) % count) := by
  subst hc
  show events.getD n _ = _
  rw [List.getD_eq_getElem?_getD, List.getElem?_eq_none hn, Option.getD_none]

theorem mem_or_turn (hc : c = thenInTurn events count turn) (n : Nat) :
    c.happens n ∈ events ∨ ∃ i, c.happens n = turn n i := by
  subst hc
  show events.getD n _ ∈ events ∨ ∃ i, events.getD n _ = turn n i
  rw [List.getD_eq_getElem?_getD]
  cases h : events[n]? with
  | none => exact .inr ⟨_, rfl⟩
  | some e => exact .inl (List.mem_of_getElem? h)

/-- Each of the events in turn comes again and again. -/
theorem comes_in_turn (hc : c = thenInTurn events count turn) (n : Nat) {i : Nat} (hi : i < count) :
    ∃ k, n ≤ k ∧ c.happens k = turn k i := by
  have hle : n ≤ count * n := Nat.le_mul_of_pos_left n (Nat.zero_lt_of_lt hi)
  refine ⟨events.length + (count * n + i), by omega, ?_⟩
  rw [turn_of_le hc (Nat.le_add_right _ _), Nat.add_sub_cancel_left, Nat.mul_add_mod,
    Nat.mod_eq_of_lt hi]

end

/-- A course stands still once its events have happened, if the last one for ever
changes nothing. -/
theorem still_of_le (hc : c = of events last) (hlast : ∀ s, step s last = (s, [])) {n : Nat}
    (hn : events.length ≤ n) :
    c.state n = c.state events.length ∧ c.effects n = c.effects events.length := by
  -- from the end of the events on, each further moment repeats the last state
  induction hn with
  | refl => exact ⟨rfl, rfl⟩
  | step hle ih =>
    obtain ⟨hs, he⟩ := ih
    refine ⟨?_, ?_⟩
    · rw [state, happens_of_le hc hle, hlast, hs]
    · rw [effects, effectsAt, happens_of_le hc hle, hlast, List.append_nil, he]

theorem always (c : Course step start) {P : σ → Prop} (h0 : P start)
    (hs : ∀ s e, P s → P (step s e).1) : ∀ n, P (c.state n)
  | 0 => h0
  | n + 1 => hs _ _ (always c h0 hs n)

theorem from_then_on (c : Course step start) {P : σ → Prop} (hs : ∀ s e, P s → P (step s e).1)
    {m n : Nat} (hmn : m ≤ n) (hm : P (c.state m)) : P (c.state n) := by
  induction hmn with
  | refl => exact hm
  | step _ ih => exact hs _ _ ih

/-- What holds at some moment, and not at the start, begins to hold at some moment. -/
theorem exists_first {P : Nat → Prop} (h0 : ¬P 0) {n : Nat} (hn : P n) :
    ∃ k, P (k + 1) ∧ ∀ j, j ≤ k → ¬P j := by
  induction n using Nat.strongRecOn with
  | ind n ih =>
    cases n with
    | zero => exact absurd hn h0
    | succ k =>
      by_cases hsooner : ∃ j, j ≤ k ∧ P j
      · obtain ⟨j, hj, hP⟩ := hsooner
        exact ih j (Nat.lt_succ_of_le hj) hP
      · exact ⟨k, hn, fun j hj hP => hsooner ⟨j, hj, hP⟩⟩

theorem first_between {P : Nat → Prop} {m n : Nat} (hmn : m ≤ n) (hm : ¬P m) (hn : P n) :
    ∃ k, m ≤ k ∧ k < n ∧ (∀ j, m ≤ j → j ≤ k → ¬P j) ∧ P (k + 1) := by
  obtain ⟨d, rfl⟩ := Nat.exists_eq_add_of_le hmn
  obtain ⟨k, hk, hbefore⟩ := exists_first (P := fun i => P (m + i)) hm hn
  refine ⟨m + k, Nat.le_add_right m k, ?_, fun j hmj hjk => ?_, hk⟩
  · apply Nat.lt_of_not_le
    intro hle
    exact hbefore d (Nat.le_of_add_le_add_left hle) hn
  · obtain ⟨i, rfl⟩ := Nat.exists_eq_add_of_le hmj
    exact hbefore i (Nat.le_of_add_le_add_left hjk)

theorem begins_between {P : Nat → Prop} {m n : Nat} (hmn : m ≤ n) (hm : ¬P m) (hn : P n) :
    ∃ k, m ≤ k ∧ k < n ∧ ¬P k ∧ P (k + 1) := by
  obtain ⟨k, hmk, hkn, hbefore, hk⟩ := first_between hmn hm hn
  exact ⟨k, hmk, hkn, hbefore k hmk (Nat.le_refl k), hk⟩

/-- Something is left to do, and less of it as soon as an event comes that the state
awaits. If no other event adds to it or changes what is awaited, and an awaited event
comes at last, then nothing is left to do some time. -/
theorem runs_down (c : Course step start) (left : σ → Nat) (awaits : σ → ε → Prop) {m : Nat}
    (hcomes : ∀ n, m ≤ n → 0 < left (c.state n) → ∃ k, n ≤ k ∧ awaits (c.state n) (c.happens k))
    (hstep : ∀ n, m ≤ n → left (c.state (n + 1)) < left (c.state n) ∨
      left (c.state (n + 1)) = left (c.state n) ∧ ¬awaits (c.state n) (c.happens n) ∧
        ∀ e, awaits (c.state n) e → awaits (c.state (n + 1)) e) :
    ∃ k, m ≤ k ∧ left (c.state k) = 0 := by
  -- until an awaited event comes, either less is left or the state awaits it still
  have hless : ∀ n, m ≤ n → 0 < left (c.state n) →
      ∃ j, n ≤ j ∧ left (c.state j) < left (c.state n) := by
    intro n hmn hpos
    obtain ⟨k, hnk, hawaited⟩ := hcomes n hmn hpos
    apply Classical.byContradiction
    intro hnever
    have hsame : ∀ d, left (c.state (n + d)) = left (c.state n) ∧
        ∀ e, awaits (c.state n) e → awaits (c.state (n + d)) e := by
      intro d
      induction d with
      | zero => exact ⟨rfl, fun _ h => h⟩
      | succ d ih =>
        rcases hstep (n + d) (by omega) with hlt | ⟨heq, -, hstill⟩
        · exact absurd ⟨n + d + 1, by omega, ih.1 ▸ hlt⟩ hnever
        · exact ⟨heq.trans ih.1, fun e h => hstill e (ih.2 e h)⟩
    obtain ⟨d, rfl⟩ := Nat.exists_eq_add_of_le hnk
    rcases hstep (n + d) (by omega) with hlt | ⟨-, hnot, -⟩
    · exact hnever ⟨n + d + 1, by omega, (hsame d).1 ▸ hlt⟩
    · exact hnot ((hsame d).2 _ hawaited)
  have hzero : ∀ bound n, m ≤ n → left (c.state n) ≤ bound → ∃ k, m ≤ k ∧ left (c.state k) = 0 := by
    intro bound
    induction bound with
    | zero => exact fun n hmn hle => ⟨n, hmn, Nat.le_zero.mp hle⟩
    | succ bound ih =>
      intro n hmn hle
      rcases Nat.eq_zero_or_pos (left (c.state n)) with hdone | hpos
      · exact ⟨n, hmn, hdone⟩
      · obtain ⟨j, hnj, hlt⟩ := hless n hmn hpos
        exact ih j (by omega) (by omega)
  exact hzero _ m (Nat.le_refl m) (Nat.le_refl _)

end Course

end ReverseTunnel

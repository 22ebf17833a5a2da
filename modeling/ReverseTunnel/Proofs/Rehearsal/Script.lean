import ReverseTunnel.Proofs.Course

/-!
The courses that scripts play.

A script moves a system by events, one after another, and what it shows of the system between
its steps are reports. So a course runs on with every step, and what was shown before stays
what it was (`Course.RunsOn`). The reports of a script are those of one course at moments that
follow one another (`Shown`). Where a script has a clock, the course keeps to it (`OnClock`).
-/

namespace ReverseTunnel

variable {σ ε φ ρ : Type} {step : σ → ε → σ × List φ} {start : σ}

/-- A course in which the same happened as in another up to a moment, and a moment of it from there
on. -/
structure Course.RunsOn (c : Course step start) (m : Nat) (c' : Course step start) (n : Nat) :
    Prop where
  le : m ≤ n
  happens : ∀ k < m, c'.happens k = c.happens k

namespace Course.RunsOn

variable {c c' c'' : Course step start} {l m n : Nat}

theorem refl (c : Course step start) (m : Nat) : c.RunsOn m c m := ⟨Nat.le_refl m, fun _ _ => rfl⟩

theorem trans (h : c.RunsOn l c' m) (h' : c'.RunsOn m c'' n) : c.RunsOn l c'' n :=
  ⟨Nat.le_trans h.le h'.le, fun k hk =>
    (h'.happens k (Nat.lt_of_lt_of_le hk h.le)).trans (h.happens k hk)⟩

theorem turnedAt (h : c.RunsOn m c' n) (e : ε) : c.RunsOn m (c'.turnedAt n e) (n + 1) :=
  h.trans ⟨Nat.le_succ n, fun _ hk => if_pos hk⟩

theorem same (h : c.RunsOn m c' n) : c'.state m = c.state m ∧ c'.effects m = c.effects m :=
  same_of_happens h.happens (Nat.le_refl m)

end Course.RunsOn

namespace Rehearsal

/-- Reports show moments that follow one another, none of them before the given one. -/
inductive Shown (shows : Nat → ρ → Prop) : Nat → List ρ → Prop
  | none (n : Nat) : Shown shows n []
  | next {n m : Nat} {r : ρ} {rs : List ρ} (hle : n ≤ m) (hr : shows m r) (hrs : Shown shows m rs) :
      Shown shows n (r :: rs)

theorem Shown.mem {shows : Nat → ρ → Prop} {n : Nat} {rs : List ρ} (h : Shown shows n rs) :
    ∀ r ∈ rs, ∃ m, n ≤ m ∧ shows m r := by
  induction h with
  | none => exact nofun
  | next hle hr _ ih =>
    intro r hmem
    rcases List.mem_cons.mp hmem with rfl | hmem
    · exact ⟨_, hle, hr⟩
    · obtain ⟨m, hm, hshows⟩ := ih r hmem
      exact ⟨m, Nat.le_trans hle hm, hshows⟩

theorem Shown.of_le {shows : Nat → ρ → Prop} {m n : Nat} {rs : List ρ} (h : Shown shows n rs)
    (hle : m ≤ n) : Shown shows m rs := by
  cases h with
  | none => exact .none m
  | next hle' hr hrs => exact .next (Nat.le_trans hle hle') hr hrs

/-- The clock of a course does not go back, and is never past a moment. -/
structure OnClock {step : σ → Nat × ε → σ × List φ} (c : Course step start) (now : Nat) : Prop where
  forward : ∀ n, (c.happens n).1 ≤ (c.happens (n + 1)).1
  past : ∀ n, (c.happens n).1 ≤ now

/-- The first of the times between two moments is between them. -/
theorem due_of_min? {times : List Nat} {now target t : Nat}
    (h : (times.filter fun t => now < t ∧ t ≤ target).min? = some t) : now < t ∧ t ≤ target := by
  simpa using (List.mem_filter.mp (List.min?_mem h)).2

section

variable {step : σ → Nat × ε → σ × List φ} {c : Course step start} {now : Nat}

theorem OnClock.later (h : OnClock c now) {later : Nat} (hlater : now ≤ later) : OnClock c later :=
  ⟨h.forward, fun n => Nat.le_trans (h.past n) hlater⟩

theorem OnClock.turnedAt (h : OnClock c now) (m : Nat) (e : ε) :
    OnClock (c.turnedAt m (now, e)) now where
  forward n := by
    rcases c.happens_turnedAt_cases m (now, e) n with ⟨hn, hbefore⟩ | ⟨hn, hturned⟩
    · rw [hbefore]
      rcases c.happens_turnedAt_cases m (now, e) (n + 1) with ⟨-, hnext⟩ | ⟨-, hnext⟩
      · rw [hnext]
        exact h.forward n
      · rw [hnext]
        exact h.past n
    · rcases c.happens_turnedAt_cases m (now, e) (n + 1) with ⟨hlt, -⟩ | ⟨-, hnext⟩
      · omega
      · exact Nat.le_of_eq (by rw [hturned, hnext])
  past n := by
    rcases c.happens_turnedAt_cases m (now, e) n with ⟨-, hbefore⟩ | ⟨-, hturned⟩
    · rw [hbefore]
      exact h.past n
    · exact Nat.le_of_eq (by rw [hturned])

end

end Rehearsal

end ReverseTunnel

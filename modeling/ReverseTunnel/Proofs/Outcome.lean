import Mathlib.Data.Option.Basic

/-!
Computations that may fail.

What is computed in two steps is there if both steps succeed (`bind_eq_ok`). What holds of
everything that is given and what it comes to holds also if nothing need be given (`rel_of_mapM`).
-/

namespace ReverseTunnel.Outcome

variable {ε α β : Type}

theorem bind_eq_ok {x : Except ε α} {f : α → Except ε β} {b : β} :
    (x >>= f) = .ok b ↔ ∃ a, x = .ok a ∧ f a = .ok b := by
  cases x with
  | error fault => simp [bind, Except.bind]
  | ok a => simp [bind, Except.bind]

theorem rel_of_mapM {f : α → Except ε β} {R : α → β → Prop} {given : Option α} {out : Option β}
    (hR : ∀ a b, f a = .ok b → R a b) (h : given.mapM f = .ok out) : Option.Rel R given out := by
  cases given with
  | none =>
    cases h
    exact .none
  | some a =>
    rw [Option.mapM_some] at h
    cases ha : f a with
    | error e =>
      rw [ha] at h
      cases h
    | ok b =>
      rw [ha] at h
      cases h
      exact .some (hR a b ha)

end ReverseTunnel.Outcome

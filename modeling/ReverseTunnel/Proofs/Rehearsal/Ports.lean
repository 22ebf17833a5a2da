import ReverseTunnel.Rehearsal.Ports

/-!
What is listened on in a rehearsal.

An address is bound only if it is one of this machine's and no listener is in its way, so that
listeners that were bound one after another are never in each other's way (`Apart`).

Nothing is said of when a bind fails: on a real machine other programs listen too.
-/

namespace ReverseTunnel.Rehearsal

open ReverseTunnel.Server (Bound)

variable {a b : Bound} {bs cs : List Bound} {next : UInt16} {addr : String}

theorem clash_comm (a b : Bound) : clash a b = clash b a := by
  simp only [clash, eq_comm (a := a.port), eq_comm (a := a.host) (b := b.host)]
  rw [Bool.or_assoc, Bool.or_assoc, Bool.or_comm (decide (a.host = _)) (decide (b.host = _))]

theorem bindBeside_eq_ok (h : bindBeside bs next addr = .ok b) :
    isLocal b.host = true ∧ ∀ a ∈ bs, clash b a = false := by
  have hbound (bound : Bound) {error : String}
      (h : (if bs.any (clash bound) then Except.error error else .ok bound) = .ok b) :
      bound = b ∧ ∀ a ∈ bs, clash b a = false := by
    split at h
    · cases h
    · rename_i hfree
      cases h
      exact ⟨rfl, by simpa using hfree⟩
  unfold bindBeside at h
  dsimp only at h
  split at h
  · cases h
  · split at h
    · cases h
    · rename_i hlocal
      obtain ⟨rfl, hfree⟩ := hbound _ h
      exact ⟨by simpa using hlocal, hfree⟩

/-- No two listeners are in each other's way. -/
def Apart (bs : List Bound) : Prop := bs.Pairwise fun a b => clash a b = false

theorem Apart.bind (h : Apart bs) (hb : bindBeside bs next addr = .ok b) : Apart (bs ++ [b]) := by
  refine List.pairwise_append.mpr ⟨h, List.pairwise_singleton _ b, fun a ha c hc => ?_⟩
  rw [List.mem_singleton.mp hc, clash_comm]
  exact (bindBeside_eq_ok hb).2 a ha

theorem Apart.perm (h : Apart bs) (hperm : bs.Perm cs) : Apart cs :=
  hperm.pairwise h fun hab => clash_comm _ _ ▸ hab

end ReverseTunnel.Rehearsal

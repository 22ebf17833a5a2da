import ReverseTunnel.Proofs.Proxy.Registering

/-!
What is left of a session table once its proxy has stopped.

Then nobody waits, the owner takes no announcement, and nobody is let in. Connections
that were being judged are judged still, but each is dropped as soon as it is judged:
nobody comes to wait any more, and nobody is paired (`lingers_step`). The pairs that
there are go on; whatever happens, a pair stays one until its own relay ends
(`pairs_last`). All of this holds of every table, also of one in which connections are
not told apart by their keys.
-/

namespace ReverseTunnel.Proxy.Table

open scoped List
open Session

variable {w : Surroundings} {t : Table} {e : TableEvent} {r : TableStep} {key : Nat}

/-! ## Pairs go on -/

theorem paired_park (t : Table) (w : Surroundings) (user : Party) (buffered : Bytes) :
    (t.park w user buffered).table.paired = t.paired := by
  unfold park
  dsimp only
  split <;> rfl

theorem paired_settle (t : Table) (w : Surroundings) (p : Party) (v : Judgement) :
    t.paired <+: (t.settle w p v).table.paired := by
  cases v with
  | user buffered =>
    exact ⟨[], (List.append_nil _).trans (paired_park t w p buffered).symm⟩
  | data session rest =>
    simp only [settle, pair]
    split
    · exact List.prefix_refl _
    · exact List.prefix_append _ _
  | closed => exact List.prefix_refl _

theorem paired_look (t : Table) (w : Surroundings) (key : Nat) :
    t.paired <+: (t.look w key).table.paired := by
  unfold look
  split
  · exact List.prefix_refl _
  · split
    · exact List.prefix_refl _
    · split
      · exact paired_settle { t with judging := dismiss key t.judging } w _ _
      · exact List.prefix_refl _

theorem paired_timeUp (t : Table) (w : Surroundings) (key : Nat) :
    t.paired <+: (t.timeUp w key).table.paired := by
  unfold timeUp
  split
  · exact List.prefix_refl _
  · split
    · exact paired_settle { t with judging := dismiss key t.judging } w _ _
    · exact List.prefix_refl _

theorem pairs_last {session : UInt32} {user data : Nat} (hp : t.Pairs session user data)
    (hrelay : ∀ y, e ≠ .relay data y) : (t.step w e).table.Pairs session user data := by
  cases e with
  | accept _ | evict _ | clear => exact hp
  | receive k a =>
    obtain ⟨p, hmem, hs, hu, hd⟩ := hp
    refine ⟨{ p with relay := p.relay.receive k a }, List.mem_map.mpr ⟨p, hmem, rfl⟩, hs, ?_, ?_⟩
    · exact (Party.key_receive _ _ _).trans hu
    · exact (Party.key_receive _ _ _).trans hd
  | look k =>
    obtain ⟨p, hmem, hsides⟩ := hp
    exact ⟨p, (paired_look t w k).subset hmem, hsides⟩
  | timeUp k =>
    obtain ⟨p, hmem, hsides⟩ := hp
    exact ⟨p, (paired_timeUp t w k).subset hmem, hsides⟩
  | relay k y =>
    obtain ⟨p, hmem, hs, hu, rfl⟩ := hp
    have hk : p.relay.back.key ≠ k := fun h => hrelay y (h ▸ rfl)
    have hpart : p ∈ part k t.paired := List.mem_filter.mpr ⟨hmem, by simpa using hk⟩
    simp only [step, relay]
    split
    · exact ⟨p, hmem, hs, hu, rfl⟩
    · split
      · exact ⟨p, List.mem_map.mpr ⟨p, hmem, if_neg hk⟩, hs, hu, rfl⟩
      · exact ⟨p, hpart, hs, hu, rfl⟩
      · exact ⟨p, hpart, hs, hu, rfl⟩

/-! ## Nobody comes in, waits or is paired any more -/

/-- The data connections that are paired. -/
def backs (t : Table) : List Nat := t.paired.map (·.relay.back.key)

theorem backs_map {f : Paired → Paired} (hf : ∀ p, (f p).relay.back.key = p.relay.back.key)
    (ps : List Paired) : (ps.map f).map (·.relay.back.key) = ps.map (·.relay.back.key) := by
  rw [List.map_map]
  exact List.map_congr_left fun p _ => hf p

/-- What is left of a table lingers through a step. -/
structure Lingers (t : Table) (r : TableStep) : Prop where
  empty : r.table.waiting = []
  judged : ∀ key, r.table.Judges key → t.Judges key
  /-- Whoever is judged is dropped. -/
  drops : ∀ key, t.Judges key → ¬ r.table.Judges key → .drop key ∈ r.effects
  /-- No data connection is paired anew. -/
  backs : r.table.backs <+ t.backs

theorem lingers_of_keys (hempty : r.table.waiting = [])
    (hjudged : r.table.judging.map (·.party.key) = t.judging.map (·.party.key))
    (hbacks : r.table.backs <+ t.backs) : Lingers t r := by
  have hsame : ∀ key, r.table.Judges key ↔ t.Judges key := fun key => by
    show (∃ j ∈ _, _) ↔ ∃ j ∈ _, _
    rw [← List.mem_map, ← List.mem_map, hjudged]
  exact ⟨hempty, fun key => (hsame key).mp, fun key hj hnot => absurd ((hsame key).mpr hj) hnot, hbacks⟩

theorem lingers_of_dismiss (hempty : r.table.waiting = [])
    (hjudged : r.table.judging = dismiss key t.judging) (hpaired : r.table.paired = t.paired)
    (hdrop : .drop key ∈ r.effects) : Lingers t r where
  empty := hempty
  judged k hk := by
    obtain ⟨j, hj, hkey⟩ := hk
    rw [hjudged] at hj
    exact ⟨j, List.mem_of_mem_filter hj, hkey⟩
  drops k hk hnot := by
    obtain ⟨j, hj, rfl⟩ := hk
    by_cases hkey : j.party.key = key
    · rw [hkey]
      exact hdrop
    · refine absurd ⟨j, ?_, rfl⟩ hnot
      rw [hjudged]
      exact List.mem_filter.mpr ⟨hj, by simpa using hkey⟩
  backs := by
    rw [backs, hpaired]
    exact List.Sublist.refl _

section

variable (hempty : t.waiting = []) (hrefuses : w.ownerAccepts = false)

include hempty

theorem lingers_self : Lingers t { table := t, ids := w.ids } :=
  lingers_of_keys hempty rfl (List.Sublist.refl _)

include hrefuses

theorem lingers_settle (p : Party) (v : Judgement) :
    Lingers t (({ t with judging := dismiss p.key t.judging } : Table).settle w p v) := by
  cases v with
  | user buffered =>
    obtain ⟨hdrop, htable⟩ := park_of_refuses w { t with judging := dismiss p.key t.judging } p
      buffered hrefuses
    refine lingers_of_dismiss ?_ ?_ ?_ hdrop
    · rw [settle, htable]
      show others _ t.waiting = []
      rw [hempty]
      rfl
    · rw [settle, htable]
    · rw [settle, htable]
  | data session rest =>
    simp only [settle, pair, hempty, List.find?_nil]
    exact lingers_of_dismiss rfl rfl rfl (by simp)
  | closed => exact lingers_of_dismiss hempty rfl rfl (List.mem_singleton_self _)

theorem lingers_look (key : Nat) : Lingers t (t.look w key) := by
  unfold look
  split
  · exact lingers_self hempty
  · rename_i j hj
    have hkey : j.party.key = key := by simpa using List.find?_some hj
    subst hkey
    split
    · exact lingers_of_dismiss hempty rfl rfl (List.mem_singleton_self _)
    · split
      · rename_i v seen s _
        exact lingers_settle hempty hrefuses { j.party with socket := s } v
      · refine lingers_of_keys hempty ?_ (List.Sublist.refl _)
        rw [List.map_map]
        apply List.map_congr_left
        intro k _
        simp only [Function.comp_apply]
        split <;> rfl

theorem lingers_timeUp (key : Nat) : Lingers t (t.timeUp w key) := by
  unfold timeUp
  split
  · exact lingers_self hempty
  · rename_i j hj
    have hkey : j.party.key = key := by simpa using List.find?_some hj
    subst hkey
    split
    · exact lingers_settle hempty hrefuses j.party (.user j.buffer)
    · exact lingers_self hempty

omit hrefuses

theorem lingers_relay (key : Nat) (y : RelayEvent) : Lingers t (t.relay w key y) := by
  unfold relay
  split
  · exact lingers_self hempty
  · rename_i q hq
    have hparted : ({ t with paired := part key t.paired } : Table).backs <+ t.backs :=
      List.filter_sublist.map _
    dsimp only
    split
    · rename_i r' es hstep
      have hback : r'.back.key = key := by
        have hkey : q.relay.back.key = key := by simpa using List.find?_some hq
        exact (Relay.key_of_goesOn hstep .back).trans hkey
      refine lingers_of_keys hempty rfl ?_
      rw [backs, backs_map]
      · exact List.Sublist.refl _
      · intro p
        split
        · rename_i hp
          exact hback.trans hp.symm
        · rfl
    · exact lingers_of_keys hempty rfl hparted
    · exact lingers_of_keys hempty rfl hparted

end

/-- Where nobody waits and the owner takes no announcement, nobody comes to wait and nobody
is paired, and whoever is judged is dropped. -/
theorem lingers_step (hempty : t.waiting = []) (hrefuses : w.ownerAccepts = false)
    (hcloses : ∀ key, e ≠ .accept key) : Lingers t (t.step w e) := by
  cases e with
  | accept key => exact absurd rfl (hcloses key)
  | receive key a =>
    refine lingers_of_keys ?_ ?_ ?_
    · show t.waiting.map _ = []
      rw [hempty]
      rfl
    · simp [step, receive, Party.key_receive]
    · rw [backs, step, receive, backs_map fun p => Party.key_receive _ _ _]
      exact List.Sublist.refl _
  | look key => exact lingers_look hempty hrefuses key
  | timeUp key => exact lingers_timeUp hempty hrefuses key
  | relay key y => exact lingers_relay hempty key y
  | evict ttl =>
    refine lingers_of_keys ?_ rfl (List.Sublist.refl _)
    show t.waiting.filter _ = []
    rw [hempty]
    rfl
  | clear => exact lingers_of_keys rfl rfl (List.Sublist.refl _)

theorem waiting_step (hempty : t.waiting = []) (hrefuses : w.ownerAccepts = false) (e : TableEvent) :
    (t.step w e).table.waiting = [] := by
  by_cases haccept : ∃ key, e = .accept key
  · obtain ⟨key, rfl⟩ := haccept
    exact hempty
  · exact (lingers_step hempty hrefuses fun key he => haccept ⟨key, he⟩).empty

end ReverseTunnel.Proxy.Table

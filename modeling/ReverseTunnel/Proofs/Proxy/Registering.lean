import ReverseTunnel.Proofs.Proxy.Issuing

/-!
When a user is registered at a session table.

A step of a table registers the one connection that it takes for a user, or it draws no
id, announces nothing and parks nobody (`step_cases`). This holds of every table, also of
one in which connections are not told apart by their keys.
-/

namespace ReverseTunnel.Proxy

open Session

namespace Table

variable {w : Surroundings} {t : Table} {e : TableEvent}

/-- The connection that is judged under a key turns out to be a user: by what it has sent,
or because its time is up. -/
inductive ShowsUser (t : Table) (now : Nat) : TableEvent → Party → Bytes → Prop
  | shown {key : Nat} {j : Judged} {buffered seen : Bytes} {s : Socket}
      (hj : t.judging.find? (·.party.key = key) = some j) (hsound : j.party.socket.broken = false)
      (hlook : Proxy.look j.buffer j.party.socket = (some (.user buffered), seen, s)) :
      ShowsUser t now (.look key) { j.party with socket := s } buffered
  | late {key : Nat} {j : Judged} (hj : t.judging.find? (·.party.key = key) = some j)
      (hdue : j.deadline ≤ now) : ShowsUser t now (.timeUp key) j.party j.buffer

/-- A step that registers nobody: no id is drawn, nothing is announced, and whoever waits
has waited before. -/
structure Silent (w : Surroundings) (t : Table) (r : TableStep) : Prop where
  ids : r.ids = w.ids
  quiet : ∀ session, .announce session ∉ r.effects
  waiting : ∀ v ∈ r.table.waiting, t.Waits v.party.key v.session

theorem waits_of_mem {v : Waiting} (hv : v ∈ t.waiting) : t.Waits v.party.key v.session :=
  ⟨v, hv, rfl, rfl⟩

theorem waits_of_mem_others {v : Waiting} {session : UInt32} (hv : v ∈ others session t.waiting) :
    t.Waits v.party.key v.session :=
  waits_of_mem (session_of_mem_others hv).1

theorem silent_pair (js : List Judged) (data : Party) (session : UInt32) (rest : Bytes) :
    Silent w t ({ t with judging := js }.pair w data session rest) := by
  unfold pair
  split
  · exact ⟨rfl, by simp, fun v hv => waits_of_mem hv⟩
  · exact ⟨rfl, by simp, fun v hv => waits_of_mem_others hv⟩

theorem look_cases (t : Table) (w : Surroundings) (key : Nat) :
    (∃ user buffered, t.ShowsUser w.now (.look key) user buffered ∧
        t.look w key = { t with judging := dismiss user.key t.judging }.park w user buffered) ∨
      Silent w t (t.look w key) := by
  unfold look
  split
  · exact .inr ⟨rfl, by simp, fun v hv => waits_of_mem hv⟩
  · rename_i j hj
    have hkey : j.party.key = key := by simpa using List.find?_some hj
    split
    · exact .inr ⟨rfl, by simp, fun v hv => waits_of_mem hv⟩
    · rename_i hsound
      split
      · rename_i judgement seen s hlook
        cases judgement with
        | user buffered =>
          refine .inl ⟨_, buffered, .shown hj (by simpa using hsound) hlook, ?_⟩
          rw [show ({ j.party with socket := s } : Party).key = key from hkey]
          rfl
        | data session rest => exact .inr (silent_pair _ _ session rest)
        | closed => exact .inr ⟨rfl, by simp [settle], fun v hv => waits_of_mem hv⟩
      · exact .inr ⟨rfl, by simp, fun v hv => waits_of_mem hv⟩

theorem timeUp_cases (t : Table) (w : Surroundings) (key : Nat) :
    (∃ user buffered, t.ShowsUser w.now (.timeUp key) user buffered ∧
        t.timeUp w key = { t with judging := dismiss user.key t.judging }.park w user buffered) ∨
      Silent w t (t.timeUp w key) := by
  unfold timeUp
  split
  · exact .inr ⟨rfl, by simp, fun v hv => waits_of_mem hv⟩
  · rename_i j hj
    have hkey : j.party.key = key := by simpa using List.find?_some hj
    split
    · rename_i hdue
      exact .inl ⟨_, _, .late hj hdue, by rw [hkey]; rfl⟩
    · exact .inr ⟨rfl, by simp, fun v hv => waits_of_mem hv⟩

theorem silent_relay (t : Table) (w : Surroundings) (key : Nat) (e : RelayEvent) :
    Silent w t (t.relay w key e) := by
  unfold relay
  split
  · exact ⟨rfl, by simp, fun v hv => waits_of_mem hv⟩
  · dsimp only
    split <;> exact ⟨rfl, by simp, fun v hv => waits_of_mem hv⟩

theorem silent_evict (t : Table) (w : Surroundings) (ttl : Nat) : Silent w t (t.evict w ttl) where
  ids := rfl
  quiet session h := by
    rcases mem_effects_evict h with ⟨_, h⟩ | ⟨_, _, h⟩ <;> cases h
  waiting v hv := waits_of_mem (List.mem_filter.mp hv).1

theorem silent_clear (t : Table) (w : Surroundings) : Silent w t (t.clear w) :=
  ⟨rfl, by simp [clear], fun v hv => absurd hv List.not_mem_nil⟩

/-- A step registers a connection that shows that it is a user, or registers nobody. -/
theorem step_cases (t : Table) (w : Surroundings) (e : TableEvent) :
    (∃ user buffered, t.ShowsUser w.now e user buffered ∧
        t.step w e = { t with judging := dismiss user.key t.judging }.park w user buffered) ∨
      Silent w t (t.step w e) := by
  cases e with
  | accept key => exact .inr ⟨rfl, by simp [step], fun v hv => waits_of_mem hv⟩
  | receive key a =>
    refine .inr ⟨rfl, by simp [step], fun v hv => ?_⟩
    obtain ⟨v', hv', rfl⟩ := List.mem_map.mp hv
    exact ⟨v', hv', (Party.key_receive _ _ _).symm, rfl⟩
  | look key => exact look_cases t w key
  | timeUp key => exact timeUp_cases t w key
  | relay key e => exact .inr (silent_relay t w key e)
  | evict ttl => exact .inr (silent_evict t w ttl)
  | clear => exact .inr (silent_clear t w)

theorem ShowsUser.step_eq {user : Party} {buffered : Bytes} (h : t.ShowsUser w.now e user buffered) :
    t.step w e = { t with judging := dismiss user.key t.judging }.park w user buffered := by
  cases h with
  | shown hj hsound hlook =>
    have hkey := List.find?_some hj
    simp only [decide_eq_true_eq] at hkey
    simp only [step, look, hj, hsound, hlook, hkey]
    rfl
  | late hj hdue =>
    have hkey := List.find?_some hj
    simp only [decide_eq_true_eq] at hkey
    simp only [step, timeUp, hj, hdue, hkey]
    rfl

/-! ## What a registration does -/

section Park

variable (t) (w) (user : Party) (buffered : Bytes)

theorem ids_park : (t.park w user buffered).ids = w.ids.draw.2 := by
  unfold park
  dsimp only
  split <;> rfl

theorem announced_park : announced (t.park w user buffered).effects = [w.ids.next] := by
  have hdisplaced : announced (displaced w.ids.next t.waiting) = [] :=
    announced_of_none (by simp [displaced])
  unfold park
  cases w.ownerAccepts with
  | true =>
    show announced (displaced w.ids.next t.waiting ++ _) = _
    rw [announced, List.filterMap_append]
    exact congrArg (· ++ _) hdisplaced
  | false =>
    show announced (displaced w.ids.next t.waiting ++ _) = _
    rw [announced, List.filterMap_append]
    exact congrArg (· ++ _) hdisplaced

theorem judging_park : (t.park w user buffered).table.judging = t.judging := by
  unfold park
  dsimp only
  split <;> rfl

theorem waiting_park_of_accepts (h : w.ownerAccepts = true) :
    (t.park w user buffered).table.waiting =
      others w.ids.next t.waiting ++ [⟨user, w.ids.next, buffered, w.now⟩] := by
  simp only [park, h, if_true]
  rfl

theorem park_of_refuses (h : w.ownerAccepts = false) :
    .drop user.key ∈ (t.park w user buffered).effects ∧
      (t.park w user buffered).table = { t with waiting := others w.ids.next t.waiting } := by
  simp only [park, h]
  refine ⟨?_, rfl⟩
  simp

end Park

end Table

end ReverseTunnel.Proxy

import Mathlib.Data.List.Nodup

/-!
Lists whose elements have keys.

Where no key occurs twice, the element found under a key splits the list, and
removing or changing the elements under that key removes or changes this one.
-/

namespace ReverseTunnel.Keyed

variable {α β : Type} [DecidableEq β] {f : α → β} {l : List α} {x : α} {k : β}

theorem split_of_find? (h : l.find? (fun y => decide (f y = k)) = some x) :
    f x = k ∧ ∃ a b, l = a ++ x :: b ∧ ∀ y ∈ a, f y ≠ k := by
  obtain ⟨hx, a, b, rfl, ha⟩ := List.find?_eq_some_iff_append.mp h
  exact ⟨by simpa using hx, a, b, rfl, fun y hy => by simpa using ha y hy⟩

theorem none_of_find? (h : l.find? (fun y => decide (f y = k)) = none) : ∀ y ∈ l, f y ≠ k := by
  intro y hy
  simpa using List.find?_eq_none.mp h y hy

theorem alone_of_find? (h : l.find? (fun y => decide (f y = k)) = some x)
    (hn : (l.map f).Nodup) :
    f x = k ∧ ∃ a b, l = a ++ x :: b ∧ (∀ y ∈ a, f y ≠ k) ∧ ∀ y ∈ b, f y ≠ k := by
  obtain ⟨hx, a, b, rfl, ha⟩ := split_of_find? h
  refine ⟨hx, a, b, rfl, ha, ?_⟩
  intro y hy hk
  rw [List.map_append, List.map_cons, List.nodup_append] at hn
  have hxb := (List.nodup_cons.mp hn.2.1).1
  exact hxb (List.mem_map.mpr ⟨y, hy, by rw [hk, hx]⟩)

theorem find?_of_mem (hn : (l.map f).Nodup) (hx : x ∈ l) :
    l.find? (fun y => decide (f y = f x)) = some x := by
  cases hf : l.find? (fun y => decide (f y = f x)) with
  | none => exact absurd rfl (none_of_find? hf x hx)
  | some y =>
    obtain ⟨hy, a, b, hl, -⟩ := split_of_find? hf
    have hyl : y ∈ l := by
      rw [hl]
      exact List.mem_append_right _ List.mem_cons_self
    -- both have the key, and keys are distinct
    rw [List.inj_on_of_nodup_map hn hyl hx hy]

theorem filter_ne_self (h : ∀ y ∈ l, f y ≠ k) : l.filter (fun y => decide (f y ≠ k)) = l :=
  List.filter_eq_self.mpr fun y hy => by simpa using h y hy

theorem filter_ne_of_alone {a b : List α} (hx : f x = k) (ha : ∀ y ∈ a, f y ≠ k)
    (hb : ∀ y ∈ b, f y ≠ k) :
    (a ++ x :: b).filter (fun y => decide (f y ≠ k)) = a ++ b := by
  rw [List.filter_append, List.filter_cons, filter_ne_self ha, filter_ne_self hb]
  simp [hx]

theorem map_at_self (g : α → α) (h : ∀ y ∈ l, f y ≠ k) :
    l.map (fun y => if f y = k then g y else y) = l := by
  calc l.map (fun y => if f y = k then g y else y)
      = l.map id := List.map_congr_left fun y hy => by simp [h y hy]
    _ = l := List.map_id l

theorem map_at_of_alone {a b : List α} (g : α → α) (hx : f x = k) (ha : ∀ y ∈ a, f y ≠ k)
    (hb : ∀ y ∈ b, f y ≠ k) :
    (a ++ x :: b).map (fun y => if f y = k then g y else y) = a ++ g x :: b := by
  rw [List.map_append, List.map_cons, map_at_self g ha, map_at_self g hb, if_pos hx]

end ReverseTunnel.Keyed

import ReverseTunnel.Session.Id

/-!
Session ids go round in a circle.

What is proved (`ids_go_round`):
1. A source issues the ids from 1 to `maxId` and begins anew, wherever it starts. So an id is
   issued again after exactly `maxId` others, and no sooner (`next_after_ne`).
2. Callers that draw at the same time look where the source stands and then try to move it on
   from there. One of them gets the id that it has seen exactly if the source still stands there,
   so that nothing depends on what the others have seen: the ids are issued as if they had been
   drawn one after another (`issued_eq`).

Nothing is assumed.

What is not said: that a caller gets an id after some number of attempts. Others may always be
faster; every order of the callers does occur.
-/

namespace ReverseTunnel.Session.IdSource

/-- A source that stands at a session id. -/
structure Valid (s : IdSource) : Prop where
  pos : 1 ≤ s.next.toNat
  le : s.next.toNat ≤ maxId

/-- The source after some ids were drawn. -/
def after (s : IdSource) : Nat → IdSource
  | 0 => s
  | k + 1 => (s.after k).draw.2

theorem valid_startingAt (first : UInt32) : (startingAt first).Valid := by
  unfold startingAt
  split
  · exact ⟨by decide, by decide⟩
  · rename_i h
    rw [not_or] at h
    refine ⟨Nat.pos_of_ne_zero fun h0 => h.1 ?_, Nat.not_lt.mp h.2⟩
    exact UInt32.toNat_inj.mp h0

/-- The id drawn next, one further in the circle. -/
theorem toNat_draw {s : IdSource} (h : s.Valid) :
    s.draw.2.next.toNat = s.next.toNat % maxId + 1 := by
  have hle := h.le
  unfold draw
  by_cases hlast : maxId ≤ s.next.toNat
  · have : s.next.toNat = maxId := Nat.le_antisymm hle hlast
    simp only [this, Nat.mod_self]
    rfl
  · have hlt : s.next.toNat < maxId := Nat.not_le.mp hlast
    have hfit : s.next.toNat + 1 < 2 ^ 32 := by
      unfold maxId at hlt
      omega
    simp only [if_neg hlast, Nat.mod_eq_of_lt hlt]
    rw [UInt32.toNat_add]
    exact Nat.mod_eq_of_lt hfit

theorem valid_draw {s : IdSource} (h : s.Valid) : s.draw.2.Valid := by
  have hlt : s.next.toNat % maxId < maxId := Nat.mod_lt _ (by decide)
  refine ⟨?_, ?_⟩ <;> rw [toNat_draw h] <;> omega

theorem valid_after {s : IdSource} (h : s.Valid) : ∀ k, (s.after k).Valid
  | 0 => h
  | k + 1 => valid_draw (valid_after h k)

theorem toNat_after {s : IdSource} (h : s.Valid) (k : Nat) :
    (s.after k).next.toNat = (s.next.toNat - 1 + k) % maxId + 1 := by
  have hpos := h.pos
  have hle := h.le
  induction k with
  | zero =>
    have hlt : s.next.toNat - 1 + 0 < maxId := by omega
    rw [Nat.mod_eq_of_lt hlt]
    show s.next.toNat = _
    omega
  | succ k ih =>
    rw [after, toNat_draw (valid_after h k), ih, Nat.mod_add_mod]
    rfl

/-- No id is issued again before all others were. -/
theorem next_after_ne {s : IdSource} (h : s.Valid) {k l : Nat} (hkl : k < l)
    (hl : l < k + maxId) : (s.after k).next ≠ (s.after l).next := by
  intro heq
  have hmod : (s.next.toNat - 1 + k) % maxId = (s.next.toNat - 1 + l) % maxId := by
    have := congrArg UInt32.toNat heq
    rw [toNat_after h, toNat_after h] at this
    exact Nat.succ.inj this
  have hdvd : maxId ∣ (s.next.toNat - 1 + l) - (s.next.toNat - 1 + k) :=
    Nat.dvd_of_mod_eq_zero (Nat.sub_mod_eq_zero_of_mod_eq hmod.symm)
  have hdiff : (s.next.toNat - 1 + l) - (s.next.toNat - 1 + k) = l - k :=
    Nat.add_sub_add_left _ _ _
  rw [hdiff] at hdvd
  have := Nat.le_of_dvd (Nat.sub_pos_of_lt hkl) hdvd
  omega

/-! ## Ids in the order in which they are issued -/

theorem after_draw (s : IdSource) (k : Nat) : s.draw.2.after k = s.after (k + 1) := by
  induction k with
  | zero => rfl
  | succ k ih =>
    rw [after, ih]
    rfl

/-- A number of ids drawn one after another, each by its place among them. -/
theorem drawMany_eq (s : IdSource) (n : Nat) :
    s.drawMany n = ((List.range n).map fun i => (s.after i).next, s.after n) := by
  induction n generalizing s with
  | zero => rfl
  | succ n ih =>
    simp only [drawMany, ih, after_draw, List.range_succ_eq_map, List.map_cons, List.map_map]
    rfl

theorem length_drawMany (s : IdSource) (n : Nat) : (s.drawMany n).1.length = n := by
  simp [drawMany_eq]

theorem getElem_drawMany (s : IdSource) (n : Nat) {i : Nat} (h : i < (s.drawMany n).1.length) :
    (s.drawMany n).1[i] = (s.after i).next := by
  simp [drawMany_eq]

theorem nodup_window {s : IdSource} (h : s.Valid) {n : Nat} {window : List UInt32}
    (hwindow : window <:+: (s.drawMany n).1) (hlength : window.length ≤ maxId) : window.Nodup := by
  obtain ⟨before, behind, hsplit⟩ := hwindow
  have hat : ∀ i (hi : i < window.length), window[i] = (s.after (before.length + i)).next := by
    intro i hi
    have hin : before.length + i < (s.drawMany n).1.length := by
      rw [← hsplit]
      simp only [List.length_append]
      omega
    rw [← getElem_drawMany s n hin]
    simp [← hsplit, List.getElem_append_left hi]
  rw [List.nodup_iff_pairwise_ne, List.pairwise_iff_getElem]
  intro i j hi hj hij
  rw [hat i hi, hat j hj]
  apply next_after_ne h <;> omega

/-! ## Callers that draw at the same time -/

/-- An attempt of a caller to move the source on from where the caller has seen it stand. What
it has seen may be long past, and an attempt that slips fails for no reason. -/
structure Attempt (κ : Type) where
  caller : κ
  seen : UInt32
  slips : Bool

/-- The id that an attempt gets, if it gets one, and the source after it. -/
def attempt {κ : Type} (s : IdSource) (a : Attempt κ) : Option UInt32 × IdSource :=
  if a.seen = s.next ∧ !a.slips then (some a.seen, (IdSource.mk a.seen).draw.2) else (none, s)

/-- The ids that attempts get in the order in which they are made, each with its caller. -/
def issued {κ : Type} : IdSource → List (Attempt κ) → List (κ × UInt32)
  | _, [] => []
  | s, a :: rest =>
    match s.attempt a with
    | (some id, s) => (a.caller, id) :: issued s rest
    | (none, s) => issued s rest

variable {κ : Type}

theorem attempt_cases (s : IdSource) (a : Attempt κ) :
    s.attempt a = (some s.draw.1, s.draw.2) ∨ s.attempt a = (none, s) := by
  unfold attempt
  split
  · rename_i h
    left
    rw [h.1]
    rfl
  · exact .inr rfl

/-- Whoever gets them, ids are issued as if they had been drawn one after another. -/
theorem issued_eq (s : IdSource) (attempts : List (Attempt κ)) :
    (s.issued attempts).map Prod.snd = (s.drawMany (s.issued attempts).length).1 := by
  induction attempts generalizing s with
  | nil => rfl
  | cons a rest ih =>
    unfold issued
    obtain h | h := attempt_cases s a
    · simp only [h, List.map_cons, List.length_cons, drawMany, ih]
    · simp only [h, ih]

/-- Attempts of callers one after another, each of which has seen where the source stands. -/
def inTurn : IdSource → List κ → List (Attempt κ)
  | _, [] => []
  | s, c :: rest => ⟨c, s.next, false⟩ :: inTurn s.draw.2 rest

theorem issued_inTurn (s : IdSource) (callers : List κ) :
    s.issued (s.inTurn callers) = callers.zip (s.drawMany callers.length).1 := by
  induction callers generalizing s with
  | nil => rfl
  | cons c rest ih =>
    have hdraws : s.attempt ⟨c, s.next, false⟩ = (some s.draw.1, s.draw.2) := if_pos ⟨rfl, rfl⟩
    simp only [inTurn, issued, hdraws, ih, List.length_cons, drawMany, List.zip_cons_cons]

/-- Where a source starts: at the given number if that is a session id, else at 1. -/
def startId (first : UInt32) : Nat :=
  if 1 ≤ first.toNat ∧ first.toNat ≤ maxId then first.toNat else 1

theorem toNat_startingAt (first : UInt32) : (startingAt first).next.toNat = startId first := by
  have hzero : first = 0 ↔ first.toNat = 0 := UInt32.toNat_inj.symm
  unfold startingAt startId
  by_cases h : 1 ≤ first.toNat ∧ first.toNat ≤ maxId
  · rw [if_pos h, if_neg (by rw [hzero]; omega)]
  · rw [if_neg h, if_pos (by rw [hzero]; omega)]
    rfl

/-- Wherever a source starts, however many ids are drawn, and whichever callers draw them in
whatever order: the ids go round in a circle from the start on, every one of them is a session
id, and none is twice among as many consecutive ones as there are session ids. -/
theorem ids_go_round (first : UInt32) :
    (∀ n i id, ((startingAt first).drawMany n).1[i]? = some id ↔
      i < n ∧ id.toNat = (startId first - 1 + i) % maxId + 1) ∧
    (∀ n, ∀ id ∈ ((startingAt first).drawMany n).1, 1 ≤ id.toNat ∧ id.toNat ≤ 0x7FFFFFFF) ∧
    (∀ n window, window <:+: ((startingAt first).drawMany n).1 →
      window.length ≤ 0x7FFFFFFF → window.Nodup) ∧
    ∀ κ : Type,
      (∀ attempts : List (Attempt κ), ((startingAt first).issued attempts).map Prod.snd =
        ((startingAt first).drawMany ((startingAt first).issued attempts).length).1) ∧
      ∀ callers : List κ, ∃ attempts, (startingAt first).issued attempts =
        callers.zip ((startingAt first).drawMany callers.length).1 := by
  have hvalid : (startingAt first).Valid := valid_startingAt first
  generalize hs : startingAt first = s at hvalid
  have hnext (i : Nat) : (s.after i).next.toNat = (startId first - 1 + i) % maxId + 1 := by
    rw [toNat_after hvalid, ← hs, toNat_startingAt]
  refine ⟨?_, ?_, fun n window => nodup_window hvalid,
    fun κ => ⟨s.issued_eq, fun callers => ⟨s.inTurn callers, s.issued_inTurn callers⟩⟩⟩
  · intro n i id
    rw [List.getElem?_eq_some_iff, ← hnext i, UInt32.toNat_inj]
    constructor
    · rintro ⟨hi, rfl⟩
      exact ⟨length_drawMany s n ▸ hi, getElem_drawMany s n hi ▸ rfl⟩
    · rintro ⟨hi, rfl⟩
      have hin : i < (s.drawMany n).1.length := (length_drawMany s n).symm ▸ hi
      exact ⟨hin, getElem_drawMany s n hin⟩
  · intro n id hid
    simp only [drawMany_eq, List.mem_map, List.mem_range] at hid
    obtain ⟨i, -, rfl⟩ := hid
    exact ⟨(valid_after hvalid i).pos, (valid_after hvalid i).le⟩

/-- Three callers draw from a source that starts two ids before the last one. One of them has
seen too little and another slips, so that each of them tries again. -/
theorem ids_go_round_threeCallers :
    let attempts : List (Attempt String) := [
      ⟨"a", 2147483645, false⟩, ⟨"b", 2147483645, false⟩, ⟨"c", 2147483646, true⟩,
      ⟨"c", 2147483646, false⟩, ⟨"b", 2147483647, false⟩, ⟨"a", 1, false⟩]
    let ids := (startingAt 2147483645).issued attempts
    ids = [("a", 2147483645), ("c", 2147483646), ("b", 2147483647), ("a", 1)] ∧
      (ids.map Prod.snd).Nodup ∧ (startingAt 4294967295).next = 1 := by
  intro attempts ids
  obtain ⟨-, -, hnodup, hcallers⟩ := ids_go_round 2147483645
  refine ⟨by decide, ?_, by decide⟩
  rw [(hcallers String).1 attempts]
  apply hnodup _ _ (List.infix_refl _)
  decide

end ReverseTunnel.Session.IdSource

import ReverseTunnel.Proofs.Disk.Paths
import ReverseTunnel.Proofs.Outcome

/-!
What making files and folders does to a file system.

Whatever stands somewhere stands there still (`Kept`), so that a path leads where it led. In a
file system all of whose entries are in folders (`WellFormed`), what is made is in a folder too.
Making the folders of a path adds nothing but folders, and none of them is deeper than the path
can lead (`Deepens`). Without double dots a path leads to its own steps, so that what is there
can also be found along it (`follow_of_entry`).
-/

namespace ReverseTunnel.Disk.Folders

open Disk.Path (depth isStep names steps)
open Outcome (bind_eq_ok)

variable {d d' d'' : Folders} {here spot : Place} {path : String} {e : Entry}

/-! ## Following names -/

/-- The place that a single name leads to from a folder. -/
def along (here : Place) (name : String) : Place :=
  if isStep name then if name = ".." then outside here else here ++ [name] else here

/-- Every name that is followed is followed from a folder, and is not too long. -/
theorem follow_cons_eq_ok {name : String} {rest : List String} :
    d.follow here (name :: rest) = .ok spot ↔
      d.entry? here = some .folder ∧ name.utf8ByteSize ≤ nameLimit ∧
        d.follow (along here name) rest = .ok spot := by
  rw [follow]
  split
  · rename_i hnone
    simp [hnone]
  · rename_i hfile
    simp [hfile]
  · rename_i hfolder
    rw [and_iff_right hfolder]
    by_cases hempty : name = ""
    · subst hempty
      simp [along, isStep]
    by_cases hdot : name = "."
    · subst hdot
      have hshort : ".".utf8ByteSize ≤ nameLimit := by decide
      simp [along, isStep, hshort]
    by_cases hdots : name = ".."
    · subst hdots
      have hshort : "..".utf8ByteSize ≤ nameLimit := by decide
      simp [along, isStep, hshort]
    have hstep : isStep name = true := by simp [isStep, hempty, hdot]
    simp only [along, hstep, if_true, if_neg hdots, hempty, hdot, decide_false, Bool.or_false,
      Bool.false_eq_true, if_false]
    split
    · rename_i hlong
      simp
      omega
    · rename_i hshort
      rw [and_iff_right (by omega)]

theorem length_outside_le (here : Place) : (outside here).length ≤ here.length + 1 := by
  unfold outside
  split
  · simp
  · split
    · rename_i hroot
      simp [hroot]
    · simp
      omega

theorem length_along_le (here : Place) (name : String) :
    (along here name).length ≤ here.length + ([name].filter isStep).length := by
  unfold along
  split
  · rename_i hstep
    rw [List.filter_cons_of_pos hstep]
    split
    · exact length_outside_le here
    · simp
  · simp

theorem length_follow_le {ns : List String} (h : d.follow here ns = .ok spot) :
    spot.length ≤ here.length + (ns.filter isStep).length := by
  induction ns generalizing here with
  | nil =>
    cases h
    simp
  | cons name rest ih =>
    obtain ⟨-, -, hrest⟩ := follow_cons_eq_ok.mp h
    have hone := length_along_le here name
    have hmore := ih hrest
    rw [← List.singleton_append, List.filter_append, List.length_append]
    omega

theorem along_eq {name : String} (h : name ≠ "..") :
    along here name = here ++ [name].filter isStep := by
  rw [along, if_neg h]
  split
  · rename_i hstep
    rw [List.filter_cons_of_pos hstep, List.filter_nil]
  · rename_i hstep
    rw [List.filter_cons_of_neg hstep, List.filter_nil, List.append_nil]

/-- Without double dots the names themselves are where they lead. -/
theorem follow_eq {ns : List String} (hdots : ".." ∉ ns) (h : d.follow here ns = .ok spot) :
    spot = here ++ ns.filter isStep := by
  induction ns generalizing here with
  | nil =>
    cases h
    simp
  | cons name rest ih =>
    obtain ⟨hname, hrest⟩ := List.ne_and_not_mem_of_not_mem_cons hdots
    obtain ⟨-, -, hfollow⟩ := follow_cons_eq_ok.mp h
    rw [ih hrest hfollow, along_eq (Ne.symm hname), List.append_assoc, ← List.filter_append,
      List.singleton_append]

/-! ## Paths -/

theorem place_eq_ok : d.place path = .ok spot ↔
    path ≠ "" ∧ isPath path = true ∧ d.follow (origin path) (names path) = .ok spot := by
  unfold place
  split
  · simp [*]
  · split
    · simp_all
    · simp_all

theorem find_eq_ok : d.find path = .ok e ↔
    ∃ spot, d.place path = .ok spot ∧ d.entry? spot = some e := by
  rw [find, bind_eq_ok]
  apply exists_congr
  intro spot
  rw [and_congr_right_iff]
  intro _
  cases d.entry? spot with
  | none => exact ⟨nofun, nofun⟩
  | some e' =>
    show Except.ok e' = Except.ok e ↔ _
    rw [Except.ok.injEq, Option.some.injEq]

theorem ne_empty_of_find (h : d.find path = .ok e) : path ≠ "" := by
  obtain ⟨spot, hplace, -⟩ := find_eq_ok.mp h
  exact (place_eq_ok.mp hplace).1

theorem find_ne_ok {fault : Fault} (h : d.find path = .error fault) (e : Entry) :
    d.find path ≠ .ok e := by
  rw [h]
  exact nofun

theorem newPlace_eq_ok : d.newPlace path = .ok spot ↔
    d.place path = .ok spot ∧ spot.getLast? = (names path).getLast? ∧ d.entry? spot = none := by
  rw [newPlace, bind_eq_ok]
  constructor
  · rintro ⟨place, hplace, h⟩
    dsimp only at h
    split at h
    · cases h
    · rename_i hlast
      split at h
      · cases h
      · rename_i hnone
        cases h
        exact ⟨hplace, Decidable.not_not.mp hlast, by simpa using hnone⟩
  · rintro ⟨hplace, hlast, hnone⟩
    refine ⟨spot, hplace, ?_⟩
    simp only [hlast, ne_eq, not_true_eq_false, if_false, hnone, Option.isSome_none,
      Bool.false_eq_true]
    rfl

theorem length_place_le (h : d.place path = .ok spot) : spot.length ≤ depth path := by
  obtain ⟨-, -, hfollow⟩ := place_eq_ok.mp h
  exact length_follow_le hfollow

theorem place_eq (hdots : ".." ∉ names path) (h : d.place path = .ok spot) :
    spot = origin path ++ steps path := by
  obtain ⟨-, -, hfollow⟩ := place_eq_ok.mp h
  exact follow_eq hdots hfollow

/-! ## What is kept -/

/-- Everything in one file system is in another one too. -/
def Kept (d d' : Folders) : Prop := ∀ place e, d.entry? place = some e → d'.entry? place = some e

theorem kept_refl (d : Folders) : Kept d d := fun _ _ h => h

theorem Kept.trans (h : Kept d d') (h' : Kept d' d'') : Kept d d'' :=
  fun place e he => h' place e (h place e he)

theorem Kept.follow (hkept : Kept d d') {ns : List String} (h : d.follow here ns = .ok spot) :
    d'.follow here ns = .ok spot := by
  induction ns generalizing here with
  | nil => exact h
  | cons name rest ih =>
    obtain ⟨hfolder, hshort, hrest⟩ := follow_cons_eq_ok.mp h
    exact follow_cons_eq_ok.mpr ⟨hkept here _ hfolder, hshort, ih hrest⟩

theorem Kept.place (hkept : Kept d d') (h : d.place path = .ok spot) :
    d'.place path = .ok spot := by
  obtain ⟨hne, hpath, hfollow⟩ := place_eq_ok.mp h
  exact place_eq_ok.mpr ⟨hne, hpath, hkept.follow hfollow⟩

theorem Kept.find (hkept : Kept d d') (h : d.find path = .ok e) : d'.find path = .ok e := by
  obtain ⟨spot, hplace, hentry⟩ := find_eq_ok.mp h
  exact find_eq_ok.mpr ⟨spot, hkept.place hplace, hkept spot e hentry⟩

/-! ## Entries in folders -/

/-- A place has nothing or a folder around it. -/
def InFolder (d : Folders) (place : Place) : Prop :=
  ∀ around name, place = around ++ [name] → d.entry? around = some .folder

/-- Every entry is in a folder, as in every file system. -/
def WellFormed (d : Folders) : Prop := ∀ place, (d.entry? place).isSome → d.InFolder place

theorem entry_of_isAbove (h : isAbove here = true) : d.entry? here = some .folder := by
  simp [ entry?, h]

theorem entry_root : d.entry? root = some .folder := by
  simp [ entry?]

theorem eq_nil_of_root {around : Place} {name : String} (h : around ++ [name] = root) :
    around = [] := by
  simp only [root, List.append_eq_singleton_iff] at h
  obtain ⟨hnil, -⟩ | ⟨-, hname⟩ := h
  · exact hnil
  · cases hname

theorem wellFormed_empty : ({} : Folders).WellFormed := by
  intro place hplace around name happ
  subst happ
  have hnames : isAbove (around ++ [name]) = true ∨ around ++ [name] = root := by
    simpa [ entry?] using hplace
  apply entry_of_isAbove
  obtain habove | hroot := hnames
  · simp only [isAbove, List.all_append, Bool.and_eq_true] at habove
    exact habove.1
  · rw [eq_nil_of_root hroot]
    rfl

theorem inFolder_origin (path : String) : d.InFolder (origin path) := by
  intro around name h
  unfold origin at h
  split at h
  · rw [eq_nil_of_root h.symm]
    exact entry_of_isAbove rfl
  · simp at h

theorem WellFormed.outside (hd : d.WellFormed) (h : d.entry? here = some .folder) :
    d.entry? (outside here) = some .folder := by
  unfold Folders.outside
  split
  · rename_i habove
    apply entry_of_isAbove
    simp only [isAbove, List.all_append] at habove ⊢
    simp [habove]
  · split
    · exact entry_root
    · rename_i habove _
      have hne : here ≠ [] := by
        intro hnil
        exact habove (by simp [hnil, isAbove])
      exact hd here (by simp [h]) _ _ (List.dropLast_concat_getLast hne).symm

theorem WellFormed.along (hd : d.WellFormed) (h : d.entry? here = some .folder) (name : String) :
    d.InFolder (along here name) := by
  unfold Folders.along
  split
  · split
    · exact hd _ (by simp [hd.outside h])
    · intro around last happ
      obtain ⟨rfl, -⟩ := List.append_inj' happ rfl
      exact h
  · exact hd _ (by simp [h])

theorem WellFormed.follow (hd : d.WellFormed) {ns : List String} (hin : d.InFolder here)
    (h : d.follow here ns = .ok spot) : d.InFolder spot := by
  induction ns generalizing here with
  | nil =>
    cases h
    exact hin
  | cons name rest ih =>
    obtain ⟨hfolder, -, hrest⟩ := follow_cons_eq_ok.mp h
    exact ih (hd.along hfolder name) hrest

theorem WellFormed.place (hd : d.WellFormed) (h : d.place path = .ok spot) : d.InFolder spot := by
  obtain ⟨-, -, hfollow⟩ := place_eq_ok.mp h
  exact hd.follow (inFolder_origin path) hfollow

/-- The places on the way to something are those of folders. -/
theorem WellFormed.on_the_way (hd : d.WellFormed) {more : Place}
    (h : (d.entry? (here ++ more)).isSome) : (d.entry? here).isSome := by
  induction more generalizing here with
  | nil => simpa using h
  | cons name more ih =>
    rw [← List.singleton_append, ← List.append_assoc] at h
    rw [hd _ (ih h) here name rfl, Option.isSome_some]

/-- What is found in a larger file system, and is in this one too, can be found in this one. -/
theorem follow_of_entry (hd : d.WellFormed) (hkept : Kept d d') {ns : List String}
    (hdots : ".." ∉ ns) (h : d'.follow here ns = .ok spot) (hto : (d.entry? spot).isSome) :
    d.follow here ns = .ok spot := by
  induction ns generalizing here with
  | nil => exact h
  | cons name rest ih =>
    obtain ⟨-, hrest⟩ := List.ne_and_not_mem_of_not_mem_cons hdots
    obtain ⟨hfolder, hshort, hfollow⟩ := follow_cons_eq_ok.mp h
    have hsome : (d.entry? here).isSome := by
      rw [follow_eq hdots h] at hto
      exact hd.on_the_way hto
    obtain ⟨e, he⟩ := Option.isSome_iff_exists.mp hsome
    have hsame := hkept here e he
    rw [hfolder, Option.some.injEq] at hsame
    subst hsame
    exact follow_cons_eq_ok.mpr ⟨he, hshort, ih hrest hfollow⟩

theorem find_of_entry (hd : d.WellFormed) (hkept : Kept d d') (hdots : ".." ∉ names path)
    (h : d'.place path = .ok spot) (hto : d.entry? spot = some e) : d.find path = .ok e := by
  obtain ⟨hne, hpath, hfollow⟩ := place_eq_ok.mp h
  have hsame := follow_of_entry hd hkept hdots hfollow (by simp [hto])
  exact find_eq_ok.mpr ⟨spot, place_eq_ok.mpr ⟨hne, hpath, hsame⟩, hto⟩

/-! ## Making one entry -/

theorem entry_insert (h : d.entry? spot = none) (e : Entry) (place : Place) :
    entry? (d.insert spot e) place = if place = spot then some e else d.entry? place := by
  have hfree : ¬(isAbove spot || spot = root) = true ∧ d.entries.lookup spot = none := by
    unfold entry? at h
    split at h
    · cases h
    · rename_i hfree
      exact ⟨hfree, h⟩
  by_cases hsame : place = spot
  · subst hsame
    rw [if_pos rfl, entry?, if_neg hfree.1, insert, List.lookup_append, hfree.2]
    simp
  · have hne : (place == spot) = false := by simpa using hsame
    simp [ entry?, insert, List.lookup_append, List.lookup_cons, hne, hsame]

theorem kept_insert (h : d.entry? spot = none) (e : Entry) : Kept d (d.insert spot e) := by
  intro place e' hplace
  rw [entry_insert h]
  split
  · rename_i hsame
    rw [hsame, h] at hplace
    cases hplace
  · exact hplace

theorem kept_create {content : Bytes} (h : d.create path content = .ok d') : Kept d d' := by
  obtain ⟨spot, hnew, hd'⟩ := bind_eq_ok.mp h
  obtain ⟨-, -, hnone⟩ := newPlace_eq_ok.mp hnew
  cases hd'
  exact kept_insert hnone _

/-- What is written to a file that is opened comes behind what it holds. -/
theorem kept_openFile (h : d.openFile path = .ok d') : Kept d d' := by
  unfold openFile at h
  split at h
  · cases h
    exact kept_refl d
  · cases h
  · exact kept_create h
  · cases h

theorem WellFormed.insert (hd : d.WellFormed) (h : d.entry? spot = none) (hin : d.InFolder spot)
    (e : Entry) : (d.insert spot e).WellFormed := by
  intro place hplace around name happ
  apply kept_insert h
  rw [entry_insert h] at hplace
  split at hplace
  · rename_i hsame
    exact hin around name (hsame ▸ happ)
  · exact hd place hplace around name happ

/-! ## Making folders -/

/-- One file system is another one with more folders, none of them deeper than a number of
names. -/
structure Deepens (n : Nat) (d d' : Folders) : Prop where
  wellFormed : d.WellFormed → d'.WellFormed
  entry : ∀ place, d'.entry? place = d.entry? place ∨
    d.entry? place = none ∧ d'.entry? place = some .folder ∧ place.length ≤ n

theorem deepens_refl (n : Nat) (d : Folders) : Deepens n d d :=
  ⟨id, fun _ => .inl rfl⟩

theorem Deepens.trans {n : Nat} (h : Deepens n d d') (h' : Deepens n d' d'') : Deepens n d d'' := by
  refine ⟨fun hd => h'.wellFormed (h.wellFormed hd), fun place => ?_⟩
  obtain hsame' | ⟨hnone', hnew'⟩ := h'.entry place
  · rw [hsame']
    exact h.entry place
  · obtain hsame | ⟨-, hfolder, -⟩ := h.entry place
    · exact .inr ⟨hsame ▸ hnone', hnew'⟩
    · rw [hfolder] at hnone'
      cases hnone'

theorem Deepens.mono {n m : Nat} (h : Deepens n d d') (hle : n ≤ m) : Deepens m d d' := by
  refine ⟨h.wellFormed, fun place => ?_⟩
  obtain hsame | ⟨hnone, hfolder, hdeep⟩ := h.entry place
  · exact .inl hsame
  · exact .inr ⟨hnone, hfolder, Nat.le_trans hdeep hle⟩

theorem Deepens.kept {n : Nat} (h : Deepens n d d') : Kept d d' := by
  intro place e he
  obtain hsame | ⟨hnone, -⟩ := h.entry place
  · rw [hsame, he]
  · rw [hnone] at he
    cases he

theorem makeFolder_deepens (h : d.makeFolder path = .ok d') : Deepens (depth path) d d' := by
  obtain ⟨spot, hnew, hd'⟩ := bind_eq_ok.mp h
  obtain ⟨hplace, -, hnone⟩ := newPlace_eq_ok.mp hnew
  cases hd'
  refine ⟨fun hd => hd.insert hnone (hd.place hplace) .folder, fun place => ?_⟩
  rw [entry_insert hnone]
  split
  · rename_i hsame
    refine .inr ⟨hsame ▸ hnone, rfl, ?_⟩
    rw [hsame, ← Path.depth_trimmed]
    exact length_place_le hplace
  · exact .inl rfl

/-- Whether or not all folders of a path can be made, those that are made are on its way. -/
theorem makeFolders_deepens (k : Nat) (path : String) (d : Folders) :
    Deepens (depth path) d (makeFolders k path d).1 := by
  induction k generalizing path d with
  | zero => exact deepens_refl _ d
  | succ k ih =>
    rw [makeFolders]
    split
    · exact deepens_refl _ d
    · split
      · rename_i hmade
        exact makeFolder_deepens hmade
      · exact deepens_refl _ d
      · split
        · exact deepens_refl _ d
        · rename_i parent hparent
          have haround := (ih parent d).mono (Path.depth_parent_le hparent)
          split
          · rename_i hfailed
            rwa [hfailed] at haround
          · rename_i d₁ hmade
            rw [hmade] at haround
            split
            · rename_i hlast
              exact haround.trans (makeFolder_deepens hlast)
            · exact haround

end ReverseTunnel.Disk.Folders

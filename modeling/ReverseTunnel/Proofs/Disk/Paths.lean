import ReverseTunnel.Disk.Folders

/-!
Which names of a path lead somewhere. `steps` are the names other than nothing and a single dot;
they and the place where a path starts (`origin`) are all that matters for how deep it can lead
(`depth`), and neither is changed by what is trimmed off a path's end. A path that ends in a file
name leads one step further than the folder around it (`steps_parent`, `depth_parent_lt`), and an
extension is put onto the last step (`steps_withExtension`).
-/

namespace ReverseTunnel.Disk.Path

open Folders (origin)

/-- Whether a name leads from a folder to something else. -/
def isStep (name : String) : Bool := name ≠ "" && name ≠ "."

/-- The names of a path that lead somewhere, from the outside in. -/
def steps (path : String) : List String := (names path).filter isStep

/-- No place that a path leads to has more names. -/
def depth (path : String) : Nat := (origin path).length + (steps path).length

/-- The chars of a path that are left without its file name, read backwards. -/
def aroundBackwards (path : String) : List Char := (backwards path).dropWhile (· ≠ '/')

/-- The path of the folder around what a path leads to, with the slash behind it. -/
def around (path : String) : String := String.ofList (aroundBackwards path).reverse

/-- The last name of a path, be it a file name or not. -/
def lastName (path : String) : List Char := ((backwards path).takeWhile (· ≠ '/')).reverse

theorem mem_steps_iff {name path : String} (h : isStep name = true) :
    name ∈ steps path ↔ name ∈ names path := by
  rw [steps, List.mem_filter, and_iff_left h]

/-! ## Steps and chars -/

theorem isStep_ofList_iff (cs : List Char) :
    isStep (String.ofList cs) = true ↔ cs ≠ [] ∧ cs ≠ ['.'] := by
  have hempty : String.ofList cs = "" ↔ cs = [] := String.ofList_eq_empty_iff
  have hdot : String.ofList cs = "." ↔ cs = ['.'] := String.ofList_inj
  simp [isStep, hempty, hdot]

theorem steps_slash (cs ds : List Char) :
    steps (String.ofList (cs ++ '/' :: ds)) =
      steps (String.ofList cs) ++ steps (String.ofList ds) := by
  simp only [steps, names, String.toList_ofList, List.splitOn_append_cons_self, List.map_append,
    List.filter_append]

theorem steps_of_noSlash {cs : List Char} (h : '/' ∉ cs) :
    steps (String.ofList cs) = [String.ofList cs].filter isStep := by
  simp only [steps, names, String.toList_ofList, List.splitOn_eq_singleton h, List.map_cons,
    List.map_nil]

theorem steps_nil : steps (String.ofList []) = [] := by decide

theorem steps_dot : steps (String.ofList ['.']) = [] := by decide

/-! ## Trimming -/

theorem steps_trimBackwards (cs : List Char) :
    steps (String.ofList (trimBackwards cs).reverse) = steps (String.ofList cs.reverse) := by
  fun_induction trimBackwards cs with
  | case1 => rfl
  | case2 rest _ ih => rw [ih, List.reverse_cons, steps_slash, steps_nil, List.append_nil]
  | case3 rest ih =>
    rw [ih, List.reverse_cons, List.reverse_cons, List.reverse_cons, List.append_assoc,
      List.singleton_append, steps_slash, steps_slash, steps_nil, steps_dot]
  | case4 => rfl

theorem getLast?_trimBackwards (cs : List Char) :
    (trimBackwards cs).getLast? = cs.getLast? := by
  fun_induction trimBackwards cs with
  | case1 => rfl
  | case2 rest hne ih =>
    cases rest with
    | nil => exact absurd rfl hne
    | cons c rest => rw [ih, List.getLast?_cons_cons]
  | case3 rest ih => rw [ih, List.getLast?_cons_cons]
  | case4 => rfl

theorem steps_trimmed (path : String) : steps (trimmed path) = steps path := by
  rw [trimmed, backwards, steps_trimBackwards, List.reverse_reverse, String.ofList_toList]

theorem origin_ofList_reverse (cs : List Char) :
    origin (String.ofList cs.reverse) = if cs.getLast? = some '/' then root else [] := by
  rw [origin, String.toList_ofList, List.head?_reverse]

theorem origin_trimBackwards (cs : List Char) :
    origin (String.ofList (trimBackwards cs).reverse) = origin (String.ofList cs.reverse) := by
  rw [origin_ofList_reverse, origin_ofList_reverse, getLast?_trimBackwards]

theorem origin_trimmed (path : String) : origin (trimmed path) = origin path := by
  rw [trimmed, backwards, origin_trimBackwards, List.reverse_reverse, String.ofList_toList]

theorem depth_trimmed (path : String) : depth (trimmed path) = depth path := by
  rw [depth, depth, origin_trimmed, steps_trimmed]

/-! ## The last name -/

theorem toList_trimmed (path : String) :
    (trimmed path).toList = (aroundBackwards path).reverse ++ lastName path := by
  rw [trimmed, String.toList_ofList, aroundBackwards, lastName, ← List.reverse_append,
    List.takeWhile_append_dropWhile]

theorem noSlash_lastName (path : String) : '/' ∉ lastName path := by
  intro h
  have hall : ((backwards path).takeWhile (· ≠ '/')).all (· ≠ '/') = true := List.all_takeWhile
  have := List.all_eq_true.mp hall _ (List.mem_reverse.mp h)
  simp at this

/-- There is nothing around a path without slashes, and otherwise a slash is around it. -/
theorem aroundBackwards_cases (path : String) :
    aroundBackwards path = [] ∨ ∃ rest, aroundBackwards path = '/' :: rest := by
  have hhead := List.head?_dropWhile_not (· ≠ '/') (backwards path)
  rw [← aroundBackwards] at hhead
  cases h : aroundBackwards path with
  | nil => exact .inl rfl
  | cons c rest =>
    rw [h] at hhead
    have hc : c = '/' := by simpa using hhead
    exact .inr ⟨rest, by rw [hc]⟩

/-- What is put behind the slash of the folder around is one more step. -/
theorem steps_behind_around (path : String) {name : List Char} (h : '/' ∉ name) :
    steps (String.ofList ((aroundBackwards path).reverse ++ name)) =
      steps (around path) ++ [String.ofList name].filter isStep := by
  rw [around]
  obtain hnone | ⟨rest, hslash⟩ := aroundBackwards_cases path
  · rw [hnone, List.reverse_nil, List.nil_append, steps_of_noSlash h, steps_nil, List.nil_append]
  · rw [hslash, List.reverse_cons, List.append_assoc, List.singleton_append, steps_slash,
      steps_slash, steps_nil, List.append_nil, steps_of_noSlash h]

/-- Two paths that have the same folder around them start where it starts, unless a name of
theirs begins with a slash. -/
theorem origin_behind_around (path : String) {name : List Char} (h : '/' ∉ name) :
    origin (String.ofList ((aroundBackwards path).reverse ++ name)) = origin (around path) := by
  rw [around, origin, origin, String.toList_ofList, String.toList_ofList]
  obtain hnone | ⟨rest, hslash⟩ := aroundBackwards_cases path
  · have hhead : name.head? ≠ some '/' := fun hhead => h (List.mem_of_head? hhead)
    rw [hnone, List.reverse_nil, List.nil_append, if_neg hhead, List.head?_nil, if_neg (by simp)]
  · simp [hslash, List.head?_append]

theorem steps_eq_around (path : String) :
    steps path = steps (around path) ++ [String.ofList (lastName path)].filter isStep := by
  rw [← steps_trimmed, ← steps_behind_around path (noSlash_lastName path), ← toList_trimmed,
    String.ofList_toList]

theorem origin_eq_around (path : String) : origin path = origin (around path) := by
  rw [← origin_trimmed, ← origin_behind_around path (noSlash_lastName path), ← toList_trimmed,
    String.ofList_toList]

theorem steps_parent {path parent : String} (h : parent? path = some parent) :
    steps parent = steps (around path) := by
  unfold parent? at h
  split at h
  · cases h
  · cases h
  · cases h
    rw [steps_trimBackwards, around, aroundBackwards]

theorem origin_parent {path parent : String} (h : parent? path = some parent) :
    origin parent = origin path := by
  unfold parent? at h
  split at h
  · cases h
  · cases h
  · cases h
    rw [origin_trimBackwards, origin_eq_around path, around, aroundBackwards]

theorem depth_parent_le {path parent : String} (h : parent? path = some parent) :
    depth parent ≤ depth path := by
  rw [depth, depth, origin_parent h, steps_parent h, steps_eq_around path, List.length_append]
  omega

/-! ## The file name -/

theorem fileName?_eq_some {path : String} {name : List Char} (h : fileName? path = some name) :
    lastName path = name ∧ isStep (String.ofList name) = true := by
  unfold fileName? at h
  rw [← lastName] at h
  split at h
  · cases h
  · cases h
  · cases h
  · rename_i hnil hdot _
    cases h
    exact ⟨rfl, (isStep_ofList_iff _).mpr ⟨hnil, hdot⟩⟩

/-- A path with a file name leads one step further than what is around it. -/
theorem steps_of_fileName? {path : String} {name : List Char} (h : fileName? path = some name) :
    steps path = steps (around path) ++ [String.ofList name] := by
  obtain ⟨hlast, hstep⟩ := fileName?_eq_some h
  rw [steps_eq_around, hlast, List.filter_cons_of_pos hstep, List.filter_nil]

theorem depth_of_fileName? {path : String} {name : List Char} (h : fileName? path = some name) :
    depth path = depth (around path) + 1 := by
  rw [depth, depth, ← origin_eq_around, steps_of_fileName? h, List.length_append,
    List.length_singleton, Nat.add_assoc]

theorem exists_parent {path : String} {name : List Char} (h : fileName? path = some name) :
    ∃ parent, parent? path = some parent := by
  obtain ⟨hlast, hstep⟩ := fileName?_eq_some h
  unfold parent?
  split
  · rename_i hnil
    cases hlast
    simp [lastName, hnil, isStep] at hstep
  · rename_i hroot
    cases hlast
    simp [lastName, hroot, isStep] at hstep
  · exact ⟨_, rfl⟩

theorem depth_parent_lt {path parent : String} {name : List Char}
    (h : fileName? path = some name) (hparent : parent? path = some parent) :
    depth parent < depth path := by
  rw [depth_of_fileName? h, depth, depth, origin_parent hparent, steps_parent hparent,
    ← origin_eq_around]
  omega

theorem withExtension_eq {path extension : String} {name : List Char}
    (h : fileName? path = some name) : withExtension path extension =
      String.ofList ((aroundBackwards path).reverse ++ (name ++ '.' :: extension.toList)) := by
  obtain ⟨hlast, -⟩ := fileName?_eq_some h
  apply String.toList_injective
  rw [withExtension, h]
  simp [String.toList_append, toList_trimmed, hlast]

variable {path extension : String} {name : List Char}

theorem noSlash_extended (h : fileName? path = some name) (hslash : '/' ∉ extension.toList) :
    '/' ∉ name ++ '.' :: extension.toList := by
  obtain ⟨rfl, -⟩ := fileName?_eq_some h
  simpa [noSlash_lastName] using hslash

theorem steps_withExtension (h : fileName? path = some name) (hslash : '/' ∉ extension.toList) :
    steps (withExtension path extension) =
      steps (around path) ++ [String.ofList (name ++ '.' :: extension.toList)] := by
  obtain ⟨-, hname⟩ := fileName?_eq_some h
  have hstep : isStep (String.ofList (name ++ '.' :: extension.toList)) = true := by
    rw [isStep_ofList_iff] at hname ⊢
    obtain _ | ⟨c, cs⟩ := name
    · exact absurd rfl hname.1
    · simp
  rw [withExtension_eq h, steps_behind_around path (noSlash_extended h hslash),
    List.filter_cons_of_pos hstep, List.filter_nil]

theorem origin_withExtension (h : fileName? path = some name) (hslash : '/' ∉ extension.toList) :
    origin (withExtension path extension) = origin path := by
  rw [withExtension_eq h, origin_behind_around path (noSlash_extended h hslash),
    ← origin_eq_around]

theorem depth_withExtension (h : fileName? path = some name) (hslash : '/' ∉ extension.toList) :
    depth (withExtension path extension) = depth path := by
  rw [depth_of_fileName? h, depth, depth, origin_withExtension h hslash,
    steps_withExtension h hslash, ← origin_eq_around, List.length_append,
    List.length_singleton, Nat.add_assoc]

/-- A name that has got an extension is no double dot. -/
theorem noDots_withExtension (h : fileName? path = some name) (hslash : '/' ∉ extension.toList)
    (hne : extension ≠ "") (hdots : ".." ∉ names path) :
    ".." ∉ names (withExtension path extension) := by
  have hstep : isStep ".." = true := by decide
  rw [← mem_steps_iff hstep] at hdots ⊢
  rw [steps_of_fileName? h] at hdots
  rw [steps_withExtension h hslash]
  simp only [List.mem_append, List.mem_singleton, not_or] at hdots ⊢
  refine ⟨hdots.1, fun hsame => ?_⟩
  obtain ⟨-, hname⟩ := fileName?_eq_some h
  have hname' : 0 < name.length := List.length_pos_iff.mpr ((isStep_ofList_iff name).mp hname).1
  have hextension : 0 < extension.toList.length := List.length_pos_iff.mpr (by simpa using hne)
  have hlength := congrArg (·.toList.length) hsame
  simp only [String.toList_ofList, List.length_append, List.length_cons] at hlength
  have htwo : "..".toList.length = 2 := by decide
  omega

end ReverseTunnel.Disk.Path

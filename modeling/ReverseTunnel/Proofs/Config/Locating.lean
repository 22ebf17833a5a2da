import Mathlib.Control.Monad.Basic
import ReverseTunnel.Config.Load
import ReverseTunnel.Config.Locate
import ReverseTunnel.Proofs.Disk.Folders
import ReverseTunnel.Proofs.Text.Utf8

/-!
The configuration file that is found, or made, is the one that is found again.

What is proved (`finds_and_keeps_one_file`):
1. Making sure of a file changes nothing that is there (`Ensured`): it adds the file, and folders
   that are less deep than its path can lead. What is made loads, and nothing is made for an
   extension of no format or in place of a folder (`MadeSure`).
2. A path that is asked for is settled by what it leads to, and all that may have changed about
   that is the file which was made. So a second start finds the same file and makes none. A path
   that led nowhere, and to whose name an extension was added, leads nowhere still: what was added
   is less deep, or has another name (`not_found_beside_extended`).

What is assumed: every entry of the file system is in a folder (`Disk.Folders.WellFormed`); and
for a second start, that the path has no double dots in it and that nothing else changes the file
system in between.

What is not said: where a file is looked for when no path is asked for.
-/

namespace ReverseTunnel.Config

open Disk (Entry Folders Place)
open Outcome (bind_eq_ok)
open Disk.Folders (Deepens Kept entry_insert find_eq_ok find_ne_ok find_of_entry
  kept_insert ne_empty_of_find newPlace_eq_ok place_eq)
open Disk.Path (around depth extension? fileName? join names parent? steps withExtension)

variable {d d' : Folders} {path asked : String} {created : Bool}

/-! ## The file that is made -/

namespace Format

variable {format : Format}

/-- What is put where there is no file of a format. -/
def entry (format : Format) : Entry := .file (Text.Utf8.encode format.template)

set_option maxRecDepth 100000 in
/-- What is put there can be read, and comes to settings. -/
theorem settings_of_template (format : Format) : ∃ file s,
    (format.parse? format.template >>= File.ofValue?) = some file ∧ file.settings = .ok s := by
  have hok : ((format.parse? format.template >>= File.ofValue?).any fun file =>
      file.settings.isOk) = true := by
    rw [template]
    cases format with
    | toml =>
      rw [parse?, Data.Toml.parse?, String.toList_ofList]
      decide +kernel
    | yaml =>
      rw [parse?, Data.Yaml.parse?, String.toList_ofList]
      decide +kernel
  obtain ⟨file, hfile, hsettings⟩ := (Option.any_eq_true _ _).mp hok
  refine ⟨file, ?_⟩
  cases hs : file.settings with
  | error e =>
    rw [hs] at hsettings
    cases hsettings
  | ok s => exact ⟨s, hfile, rfl⟩

theorem ofPath?_eq_none (h : ∀ e, extension? path = some e →
    Text.lowerAscii e ∉ ["toml", "yaml", "yml"]) : ofPath? path = none := by
  have hnone : extensionOf path ∉ ["toml", "yaml", "yml"] := by
    unfold extensionOf
    cases he : extension? path with
    | none => decide
    | some e => exact h e he
  simp only [List.mem_cons, List.not_mem_nil, or_false, not_or] at hnone
  unfold ofPath?
  split <;> simp_all

theorem exists_fileName (h : ofPath? path = some format) : ∃ name, fileName? path = some name := by
  cases hname : fileName? path with
  | some name => exact ⟨name, rfl⟩
  | none =>
    have hnone : extension? path = none := by
      rw [extension?, hname]
      rfl
    rw [ofPath?_eq_none (by simp [hnone])] at h
    cases h

/-- Where there is no file name, no extension is added. -/
theorem exists_fileName_of_extended {extension : String}
    (h : ofPath? (withExtension path extension) = some format) :
    ∃ name, fileName? path = some name := by
  cases hname : fileName? path with
  | some name => exact ⟨name, rfl⟩
  | none =>
    obtain ⟨name, hname'⟩ := exists_fileName h
    rw [withExtension, hname, hname] at hname'
    cases hname'

end Format

theorem settingsOf_eq_ok {format : Format} {content : Bytes} {file : File} {s : Settings}
    (hformat : Format.ofPath? path = some format)
    (hfile : (format.parse? (Text.Utf8.lossy content) >>= File.ofValue?) = some file)
    (hs : file.settings = .ok s) : settingsOf path content = .ok s := by
  delta settingsOf
  simp only [hformat, hfile, hs]
  rfl

theorem load_of_find {format : Format} (hformat : Format.ofPath? path = some format)
    (h : d.find path = .ok format.entry) : ∃ s, load d path = .ok s := by
  have hread : d.read path = .ok (Text.Utf8.encode format.template) := by
    rw [Folders.read, h]
    rfl
  obtain ⟨file, s, hfile, hs⟩ := format.settings_of_template
  refine ⟨s, ?_⟩
  rw [load, hread]
  apply settingsOf_eq_ok hformat _ hs
  rwa [Text.Utf8.lossy_encode]

/-! ## Making sure of a file -/

/-- What making sure of a file comes to: it is there, it cannot be made, or it is made. -/
inductive Ensured (path : String) (d : Folders) : Folders → Except LocateError Bool → Prop where
  | found {content : Bytes} (h : d.find path = .ok (.file content)) : Ensured path d d (.ok false)
  | failed {d₁ : Folders} {n : Nat} {error : LocateError} (h : Deepens n d d₁) :
    Ensured path d d₁ (.error error)
  | made {d₁ : Folders} {n : Nat} {format : Format} {spot : Place}
    (hmissing : d.find path = .error .missing) (hformat : Format.ofPath? path = some format)
    (hdeepens : Deepens n d d₁) (hless : n < depth path)
    (hnew : d₁.newPlace path = .ok spot) : Ensured path d (d₁.insert spot format.entry) (.ok true)

/-- A file is made in the folder around it, if that folder is there or can be made. -/
theorem create_cases {parent : String} (hparent : parent? path = some parent) (format : Format)
    (d : Folders) : ∃ d₁, Deepens (depth parent) d d₁ ∧
      ((∃ error, create path format d = (d₁, .error error)) ∨
        ∃ spot, d₁.newPlace path = .ok spot ∧
          create path format d = (d₁.insert spot format.entry, .ok ())) := by
  have hdeepens : Deepens (depth parent) d (d.makeAll parent).1 :=
    Disk.Folders.makeFolders_deepens _ parent d
  refine ⟨_, hdeepens, ?_⟩
  simp only [create, hparent, Option.getD_some]
  obtain ⟨d₁, fault⟩ := d.makeAll parent
  cases fault with
  | some fault => exact .inl ⟨_, rfl⟩
  | none =>
    dsimp only
    cases hcreate : d₁.create path (Text.Utf8.encode format.template) with
    | error fault => exact .inl ⟨_, rfl⟩
    | ok d₂ =>
      obtain ⟨spot, hnew, hd₂⟩ := bind_eq_ok.mp hcreate
      cases hd₂
      exact .inr ⟨spot, hnew, rfl⟩

variable {result : Except LocateError Bool}

theorem ensured (h : ensure path d = (d', result)) : Ensured path d d' result := by
  unfold ensure at h
  have hrefl := Disk.Folders.deepens_refl 0 d
  split at h
  · cases h
    exact .failed hrefl
  · split at h
    · rename_i content hfile
      cases h
      exact .found hfile
    · cases h
      exact .failed hrefl
    · cases h
      exact .failed hrefl
    · rename_i hmissing
      split at h
      · cases h
        exact .failed hrefl
      · rename_i format hformat
        obtain ⟨name, hname⟩ := Format.exists_fileName hformat
        obtain ⟨parent, hparent⟩ := Disk.Path.exists_parent hname
        obtain ⟨d₁, hdeepens, ⟨error, hfailed⟩ | ⟨spot, hnew, hmade⟩⟩ :=
          create_cases hparent format d
        · rw [hfailed] at h
          cases h
          exact .failed hdeepens
        · rw [hmade] at h
          cases h
          exact .made hmissing hformat hdeepens (Disk.Path.depth_parent_lt hname hparent) hnew

theorem Ensured.kept (h : Ensured path d d' result) : Kept d d' := by
  cases h with
  | found => exact Disk.Folders.kept_refl d
  | failed hdeepens => exact hdeepens.kept
  | made _ _ hdeepens _ hnew =>
    obtain ⟨-, -, hnone⟩ := newPlace_eq_ok.mp hnew
    exact hdeepens.kept.trans (kept_insert hnone _)

theorem Ensured.wellFormed (h : Ensured path d d' result) (hd : d.WellFormed) :
    d'.WellFormed := by
  cases h with
  | found => exact hd
  | failed hdeepens => exact hdeepens.wellFormed hd
  | made _ _ hdeepens _ hnew =>
    obtain ⟨hplace, -, hnone⟩ := newPlace_eq_ok.mp hnew
    have hd₁ := hdeepens.wellFormed hd
    exact hd₁.insert hnone (hd₁.place hplace) _

theorem Ensured.created_iff (h : Ensured path d d' result) : result = .ok true ↔
    ∃ format place, Format.ofPath? path = some format ∧ d'.place path = .ok place ∧
      d.entry? place = none ∧ d'.entry? place = some format.entry := by
  cases h with
  | found =>
    refine ⟨nofun, ?_⟩
    rintro ⟨format, place, -, -, hnone, hsome⟩
    rw [hnone] at hsome
    cases hsome
  | failed hdeepens =>
    refine ⟨nofun, ?_⟩
    rintro ⟨format, place, -, -, hnone, hsome⟩
    obtain hsame | ⟨-, hfolder, -⟩ := hdeepens.entry place
    · rw [hsame, hnone] at hsome
      cases hsome
    · rw [hfolder] at hsome
      cases hsome
  | @made d₁ _ format spot _ hformat hdeepens _ hnew =>
    refine iff_of_true rfl ⟨format, spot, hformat, ?_⟩
    obtain ⟨hplace, -, hnone⟩ := newPlace_eq_ok.mp hnew
    have hentry : d.entry? spot = none := by
      obtain hsame | ⟨hentry, -⟩ := hdeepens.entry spot
      · rw [← hsame, hnone]
      · exact hentry
    refine ⟨(kept_insert hnone _).place hplace, hentry, ?_⟩
    rw [entry_insert hnone, if_pos rfl]

/-- A file that is made is what its path leads to from then on. -/
theorem Ensured.find_of_created (h : Ensured path d d' (.ok true)) :
    d.find path = .error .missing ∧
      ∃ format, Format.ofPath? path = some format ∧ d'.find path = .ok format.entry := by
  obtain ⟨format, place, hformat, hplace, -, hentry⟩ := h.created_iff.mp rfl
  refine ⟨?_, format, hformat, find_eq_ok.mpr ⟨place, hplace, hentry⟩⟩
  cases h with
  | made hmissing => exact hmissing

/-- Without double dots, what a path leads to is told by what it led to. -/
theorem Ensured.created_iff_find (h : Ensured path d d' result) (hd : d.WellFormed)
    (hdots : ".." ∉ names path) : result = .ok true ↔
      ∃ format, Format.ofPath? path = some format ∧ (∀ e, d.find path ≠ .ok e) ∧
        d'.find path = .ok format.entry := by
  constructor
  · rintro rfl
    obtain ⟨hmissing, format, hformat, hfind⟩ := h.find_of_created
    exact ⟨format, hformat, find_ne_ok hmissing, hfind⟩
  · rintro ⟨format, hformat, hnot, hfind⟩
    obtain ⟨place, hplace, hentry⟩ := find_eq_ok.mp hfind
    refine h.created_iff.mpr ⟨format, place, hformat, hplace, ?_, hentry⟩
    cases hnone : d.entry? place with
    | none => rfl
    | some e => exact absurd (find_of_entry hd h.kept hdots hplace hnone) (hnot e)

theorem Ensured.isFile (h : Ensured path d d' (.ok created)) :
    ∃ content, d'.find path = .ok (.file content) := by
  cases created with
  | true =>
    obtain ⟨-, format, -, hfind⟩ := h.find_of_created
    exact ⟨_, hfind⟩
  | false =>
    cases h with
    | found hfile => exact ⟨_, hfile⟩

theorem ensure_of_file {content : Bytes} (h : d.find path = .ok (.file content)) :
    ensure path d = (d, .ok false) := by
  rw [ensure, if_neg (ne_empty_of_find h), h]

/-! ## The path that is asked for -/

/-- Nothing is found where nothing was found, if a file is made beside it whose name is longer by
an extension: what is new is less deep or has that other name. -/
theorem not_found_beside_extended {name : List Char} {d₁ : Folders} {n : Nat} {spot : Place}
    (hd : d.WellFormed) (hdots : ".." ∉ names asked)
    (hname : fileName? asked = some name) (hnot : ∀ e, d.find asked ≠ .ok e)
    (hdeepens : Deepens n d d₁) (hless : n < depth (withExtension asked "toml"))
    (hnew : d₁.newPlace (withExtension asked "toml") = .ok spot) (e e' : Entry) :
    (d₁.insert spot e).find asked ≠ .ok e' := by
  intro hfind
  obtain ⟨place, hplace, hentry⟩ := find_eq_ok.mp hfind
  obtain ⟨hto, -, hnone⟩ := newPlace_eq_ok.mp hnew
  have hkept : Kept d (d₁.insert spot e) := hdeepens.kept.trans (kept_insert hnone e)
  have hslash : '/' ∉ "toml".toList := by decide
  have hplace' : place =
      Folders.origin asked ++ (steps (around asked) ++ [String.ofList name]) := by
    rw [place_eq hdots hplace, Disk.Path.steps_of_fileName? hname]
  have hto' : spot = Folders.origin asked ++
      (steps (around asked) ++ [String.ofList (name ++ '.' :: "toml".toList)]) := by
    have hdots' := Disk.Path.noDots_withExtension hname hslash (by decide) hdots
    rw [place_eq hdots' hto, Disk.Path.origin_withExtension hname hslash,
      Disk.Path.steps_withExtension hname hslash]
  rw [entry_insert hnone] at hentry
  split at hentry
  · rename_i hsame
    rw [hplace', hto', List.append_cancel_left_eq, List.append_cancel_left_eq, List.cons.injEq,
      String.ofList_inj] at hsame
    have hlength := congrArg List.length hsame.1
    simp at hlength
  · obtain hsame | ⟨-, -, hle⟩ := hdeepens.entry place
    · rw [hsame] at hentry
      exact hnot e' (find_of_entry hd hkept hdots hplace hentry)
    · have hdepth : place.length = depth asked := by
        rw [place_eq hdots hplace, List.length_append, depth]
      rw [Disk.Path.depth_withExtension hname hslash] at hless
      omega

theorem explicitPath_of_folder (h : d.find asked = .ok .folder) : explicitPath d asked =
    .ok ((discover? d asked).getD (join asked "tether.toml")) := by
  rw [explicitPath, if_neg (ne_empty_of_find h), h]

theorem explicitPath_of_file {content : Bytes} (h : d.find asked = .ok (.file content)) :
    explicitPath d asked = .ok asked := by
  rw [explicitPath, if_neg (ne_empty_of_find h), h]

theorem explicitPath_of_nothing (hne : asked ≠ "") (h : ∀ e, d.find asked ≠ .ok e) :
    explicitPath d asked =
      .ok (if (extension? asked).isNone then withExtension asked "toml" else asked) := by
  rw [explicitPath, if_neg hne]
  cases hfind : d.find asked with
  | ok e => exact absurd hfind (h e)
  | error fault => rfl

theorem discover?_of_first {folder : String} (h : d.isFile (join folder "tether.toml") = true) :
    discover? d folder = some (join folder "tether.toml") := by
  rw [discover?, fileNames, List.map_cons, List.find?_cons_of_pos h]

theorem isFile_of_discover? {folder : String} (h : discover? d folder = some path) :
    ∃ content, d.find path = .ok (.file content) := by
  have hfile : d.isFile path = true := List.find?_some h
  unfold Folders.isFile at hfile
  split at hfile
  · rename_i content hfind
    exact ⟨content, hfind⟩
  · cases hfile

theorem explicitPath_again_in_folder {content : Bytes} (hkept : Kept d d')
    (hfolder : d.find asked = .ok .folder) (hpath : explicitPath d asked = .ok path)
    (hnot : ∀ e, d.find path ≠ .ok e) (hfile : d'.find path = .ok (.file content)) :
    explicitPath d' asked = .ok path := by
  rw [explicitPath_of_folder hfolder, Except.ok.injEq] at hpath
  rw [explicitPath_of_folder (hkept.find hfolder), Except.ok.injEq]
  cases hdiscover : discover? d asked with
  | some found =>
    -- then there was a file to be found
    rw [hdiscover, Option.getD_some] at hpath
    subst hpath
    obtain ⟨_, hfound⟩ := isFile_of_discover? hdiscover
    exact absurd hfound (hnot _)
  | none =>
    rw [hdiscover, Option.getD_none] at hpath
    subst hpath
    have hfirst : d'.isFile (join asked "tether.toml") = true := by
      rw [Folders.isFile, hfile]
    rw [discover?_of_first hfirst, Option.getD_some]

/-- The path that is asked for leads to the same file when that is made. -/
theorem explicitPath_again (hd : d.WellFormed) (hdots : ".." ∉ names asked)
    (hpath : explicitPath d asked = .ok path) (h : Ensured path d d' (.ok created)) :
    explicitPath d' asked = .ok path := by
  have hkept := h.kept
  obtain ⟨content, hfile⟩ := h.isFile
  cases h with
  | found => exact hpath
  | @made d₁ n format spot hmissing hformat hdeepens hless hnew =>
    have hnot := find_ne_ok hmissing
    have hne : asked ≠ "" := by
      rintro rfl
      cases hpath
    cases hasked : d.find asked with
    | ok e =>
      cases e with
      | file =>
        rw [explicitPath_of_file hasked, Except.ok.injEq] at hpath
        subst hpath
        exact absurd hasked (hnot _)
      | folder => exact explicitPath_again_in_folder hkept hasked hpath hnot hfile
    | error fault =>
      rw [explicitPath_of_nothing hne (find_ne_ok hasked), Except.ok.injEq] at hpath
      split at hpath
      · rename_i hextension
        subst hpath
        obtain ⟨name, hname⟩ := Format.exists_fileName_of_extended hformat
        have hstill := not_found_beside_extended hd hdots hname (find_ne_ok hasked) hdeepens hless
          hnew format.entry
        rw [explicitPath_of_nothing hne hstill, if_pos hextension]
      · subst hpath
        exact explicitPath_of_file hfile

/-- Of the path that is asked for it depends on nothing else which file is meant. -/
theorem resolve_of_asked {flag env : Option String}
    (h : flag.or (env.filter (· ≠ "")) = some asked) :
    ∃ source, ∀ d, resolve d flag env = (explicitPath d asked).map (·, source) := by
  cases flag with
  | some given =>
    cases h
    exact ⟨.flag, fun d => rfl⟩
  | none =>
    refine ⟨.env, fun d => ?_⟩
    rw [Option.none_or] at h
    simp only [resolve, h]

/-! ## Two starts -/

/-- What making sure of a file at a path does to a file system, and what it says about it. -/
structure MadeSure (path : String) (d d' : Folders) (result : Except LocateError Bool) : Prop where
  /-- Every file and every folder that was there is there as it was. -/
  kept : ∀ place e, d.entry? place = some e → d'.entry? place = some e
  /-- Every path that led to something leads to the same. -/
  found : ∀ other e, d.find other = .ok e → d'.find other = .ok e
  /-- A file is said to be made exactly if there was nothing at the place of the path, and there
  is now what is written for its extension. With double dots the place may only be known once
  folders have been made. -/
  created_iff : result = .ok true ↔ ∃ format place, Format.ofPath? path = some format ∧
    d'.place path = .ok place ∧ d.entry? place = none ∧
    d'.entry? place = some (.file (Text.Utf8.encode format.template))
  /-- Without double dots the same is told by what the path leads to. -/
  created_iff_find : ".." ∉ names path → (result = .ok true ↔
    ∃ format, Format.ofPath? path = some format ∧ (∀ e, d.find path ≠ .ok e) ∧
      d'.find path = .ok (.file (Text.Utf8.encode format.template)))
  /-- A file is made where the path led to nothing, and has settings in it. -/
  loads : result = .ok true → d.find path = .error .missing ∧ ∃ s, load d' path = .ok s
  /-- Nothing is made where the path leads to nothing and its extension is that of no format. -/
  unsupported : (∀ e, d.find path ≠ .ok e) →
    (∀ e, extension? path = some e → Text.lowerAscii e ∉ ["toml", "yaml", "yml"]) →
    d' = d ∧ ∃ error, result = .error error
  /-- Nothing is made where the path leads to a folder. -/
  folder : d.find path = .ok .folder → d' = d ∧ ∃ error, result = .error error

theorem ensure_of_unsupported (hnot : ∀ e, d.find path ≠ .ok e)
    (hformat : Format.ofPath? path = none) : ∃ error, ensure path d = (d, .error error) := by
  unfold ensure
  split
  · exact ⟨_, rfl⟩
  · cases hfind : d.find path with
    | ok e => exact absurd hfind (hnot e)
    | error fault =>
      cases fault with
      | refused => exact ⟨_, rfl⟩
      | missing =>
        simp only [hformat]
        exact ⟨_, rfl⟩

theorem ensure_of_folder (h : d.find path = .ok .folder) :
    ∃ error, ensure path d = (d, .error error) := by
  rw [ensure, if_neg (ne_empty_of_find h), h]
  exact ⟨_, rfl⟩

theorem madeSure (hd : d.WellFormed) (h : ensure path d = (d', result)) :
    MadeSure path d d' result where
  kept := (ensured h).kept
  found := fun _ _ => (ensured h).kept.find
  created_iff := (ensured h).created_iff
  created_iff_find := (ensured h).created_iff_find hd
  loads := by
    rintro rfl
    obtain ⟨hmissing, format, hformat, hfind⟩ := (ensured h).find_of_created
    exact ⟨hmissing, load_of_find hformat hfind⟩
  unsupported := by
    intro hnot hextension
    obtain ⟨error, hfailed⟩ := ensure_of_unsupported hnot (Format.ofPath?_eq_none hextension)
    rw [hfailed] at h
    cases h
    exact ⟨rfl, error, rfl⟩
  folder := by
    intro hfolder
    obtain ⟨error, hfailed⟩ := ensure_of_folder hfolder
    rw [hfailed] at h
    cases h
    exact ⟨rfl, error, rfl⟩

/-- A path that is asked for, by the flag or by the environment, leads a second start to the file
that it led the first one to, and this is there then. What making sure of a file does to files
that are there, and when it makes one, is so of every path. -/
theorem finds_and_keeps_one_file (hd : d.WellFormed) :
    (∀ flag env asked path source d' created,
      flag.or (env.filter (· ≠ "")) = some asked → ".." ∉ names asked →
      resolve d flag env = .ok (path, source) → ensure path d = (d', .ok created) →
      resolve d' flag env = .ok (path, source) ∧ ensure path d' = (d', .ok false)) ∧
    ∀ path d' result, ensure path d = (d', result) →
      d'.WellFormed ∧ MadeSure path d d' result := by
  constructor
  · intro flag env asked path source d' created hasked hdots hresolve hensure
    have hensured := ensured hensure
    obtain ⟨source', hsource⟩ := resolve_of_asked hasked
    rw [hsource] at hresolve ⊢
    cases hpath : explicitPath d asked with
    | error e =>
      rw [hpath] at hresolve
      cases hresolve
    | ok found =>
      rw [hpath] at hresolve
      cases hresolve
      rw [explicitPath_again hd hdots hpath hensured]
      obtain ⟨content, hfile⟩ := hensured.isFile
      exact ⟨rfl, ensure_of_file hfile⟩
  · intro path d' result hensure
    exact ⟨(ensured hensure).wellFormed hd, madeSure hd hensure⟩

/-- A path without an extension is asked for by the environment, in folders of which the first has
another configuration file in it and the second is missing. -/
theorem finds_and_keeps_one_file_besideAnother :
    let d := (ensure "conf/tether.yml" {}).1
    let d' := (ensure "conf/new/tunnel.toml" d).1
    d.find "conf/tether.yml" = .ok Format.yaml.entry ∧
      resolve d none (some "conf/new/tunnel") = .ok ("conf/new/tunnel.toml", .env) ∧
      ensure "conf/new/tunnel.toml" d = (d', .ok true) ∧
      resolve d' none (some "conf/new/tunnel") = .ok ("conf/new/tunnel.toml", .env) ∧
      ensure "conf/new/tunnel.toml" d' = (d', .ok false) ∧
      d'.find "conf/tether.yml" = .ok Format.yaml.entry ∧
      ∃ s, load d' "conf/new/tunnel.toml" = .ok s := by
  intro d d'
  have hmadeFirst : (ensure "conf/tether.yml" {}).2 = .ok true := by decide +kernel
  have hfirst : Ensured "conf/tether.yml" {} d (.ok true) := ensured (Prod.ext rfl hmadeFirst)
  have hd : d.WellFormed := hfirst.wellFormed Disk.Folders.wellFormed_empty
  have hbefore : d.find "conf/tether.yml" = .ok Format.yaml.entry := by
    obtain ⟨-, format, hformat, hfind⟩ := hfirst.find_of_created
    have hyaml : Format.ofPath? "conf/tether.yml" = some .yaml := by decide +kernel
    rw [hyaml] at hformat
    cases hformat
    exact hfind
  have hresolve : resolve d none (some "conf/new/tunnel") = .ok ("conf/new/tunnel.toml", .env) := by
    decide +kernel
  have hmade : (ensure "conf/new/tunnel.toml" d).2 = .ok true := by decide +kernel
  have hensure : ensure "conf/new/tunnel.toml" d = (d', .ok true) := Prod.ext rfl hmade
  obtain ⟨hstarts, hpaths⟩ := finds_and_keeps_one_file hd
  obtain ⟨hresolve', hensure'⟩ := hstarts none (some "conf/new/tunnel") "conf/new/tunnel" _ _ _ _
    rfl (by decide +kernel) hresolve hensure
  obtain ⟨-, hsure⟩ := hpaths _ _ _ hensure
  exact ⟨hbefore, hresolve, hensure, hresolve', hensure', hsure.found _ _ hbefore,
    (hsure.loads rfl).2⟩

/-- Double dots may lead to a folder once what is before them has been made. -/
example :
    let d : Folders := { entries := [(["y"], .folder)] }
    let d' := (ensure "x/../y.toml" d).1
    resolve d (some "x/../y") none = .ok ("x/../y.toml", .flag) ∧
      (ensure "x/../y.toml" d).2 = .ok true ∧
      resolve d' (some "x/../y") none = .ok ("x/../y/tether.toml", .flag) := by
  decide +kernel

end ReverseTunnel.Config

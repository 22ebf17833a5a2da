import Mathlib.Data.List.DropRight
import ReverseTunnel.Text.Blank

/-!
Trimming once is enough: a trimmed text does not change when it is trimmed, nor does one that
neither begins nor ends with a blank (`trimChars_of_ends`). A text is blank exactly if nothing is
left of it, which is if all of its characters are blank (`trim_eq_empty_iff`).
-/

namespace ReverseTunnel.Text

theorem trimLeft_of_prefix {cs ds : List Char} (h : ds <+: trimLeft cs) : trimLeft ds = ds := by
  cases ds with
  | nil => rfl
  | cons d ds =>
    obtain ⟨more, hmore⟩ := h
    have hd : isBlank d = false := by
      have hhead := List.head?_dropWhile_not isBlank cs
      rw [show cs.dropWhile isBlank = d :: (ds ++ more) from hmore.symm] at hhead
      simpa using hhead
    simp [trimLeft, hd]

theorem trimLeft_trimChars (cs : List Char) : trimLeft (trimChars cs) = trimChars cs :=
  trimLeft_of_prefix (List.rdropWhile_prefix isBlank (trimLeft cs))

theorem trimChars_trimChars (cs : List Char) : trimChars (trimChars cs) = trimChars cs := by
  rw [trimChars, trimLeft_trimChars]
  exact List.rdropWhile_idempotent isBlank (trimLeft cs)

theorem isBlank_of_head?_trimChars {cs : List Char} {c : Char} (h : (trimChars cs).head? = some c) :
    isBlank c = false := by
  have hhead := List.head?_dropWhile_not isBlank (trimChars cs)
  rw [show (trimChars cs).dropWhile isBlank = trimChars cs from trimLeft_trimChars cs, h] at hhead
  exact hhead

theorem trimChars_of_ends {cs : List Char} (hfirst : ∀ c, cs.head? = some c → isBlank c = false)
    (hlast : ∀ c, cs.getLast? = some c → isBlank c = false) : trimChars cs = cs := by
  have hleft : trimLeft cs = cs := by
    cases cs with
    | nil => rfl
    | cons c cs => simp [trimLeft, hfirst c rfl]
  rw [trimChars, hleft]
  apply List.rdropWhile_eq_self_iff.mpr
  intro hne
  simp [hlast _ (List.getLast?_eq_some_getLast hne)]

theorem mem_of_mem_trimChars {cs : List Char} {c : Char} (h : c ∈ trimChars cs) : c ∈ cs :=
  (List.dropWhile_suffix isBlank).subset ((List.rdropWhile_prefix isBlank _).subset h)

theorem trim_trim (s : String) : trim (trim s) = trim s := by
  simp only [trim, String.toList_ofList, trimChars_trimChars]

theorem isBlankText_iff (s : String) : isBlankText s = true ↔ trim s = "" := by
  rw [isBlankText, trim, List.isEmpty_iff]
  constructor
  · intro h
    simp only [h, String.ofList_nil]
  · intro h
    have := congrArg String.toList h
    simpa using this

/-- All characters of a text are blank. -/
def Blank (s : String) : Prop := ∀ c ∈ s.toList, isBlank c = true

theorem isBlankText_iff_blank (s : String) : isBlankText s = true ↔ Blank s := by
  have hright : trimChars s.toList = [] ↔ ∀ c ∈ trimLeft s.toList, isBlank c = true :=
    List.rdropWhile_eq_nil_iff
  rw [isBlankText, List.isEmpty_iff, hright]
  constructor
  · intro h
    -- what is left at the front begins with no blank, so that nothing is left
    have hnone : trimLeft s.toList = [] := by
      cases hleft : trimLeft s.toList with
      | nil => rfl
      | cons c cs =>
        have hhead := List.head?_dropWhile_not isBlank s.toList
        rw [show s.toList.dropWhile isBlank = c :: cs from hleft] at hhead
        have hblank := h c (hleft ▸ List.mem_cons_self)
        simp [hblank] at hhead
    exact List.dropWhile_eq_nil_iff.mp hnone
  · intro h c hc
    exact h c ((List.dropWhile_suffix _).subset hc)

theorem trim_eq_empty_iff (s : String) : trim s = "" ↔ Blank s :=
  (isBlankText_iff s).symm.trans (isBlankText_iff_blank s)

end ReverseTunnel.Text

import ReverseTunnel.Address
import ReverseTunnel.Proofs.Text.Trim

/-!
Addresses that a host and a port are joined to, taken apart again.

No digit of a port is a colon, so that the last colon of an address always stands in front of its
port, and what stands in front of that (`front`) and the port are all that an address says
(`joinChars_inj`). A host without brackets comes back from there but for blanks around it
(`hostOf_join`): from its brackets if it holds a colon, and else from in front of the only colon.
Brackets that are there already make no difference to a host that gets them anyway
(`join_bracketed`).
-/

namespace ReverseTunnel.Address

/-! ## Blanks -/

theorem join_trim (host : String) (port : UInt16) : join (Text.trim host) port = join host port := by
  simp only [join, joinChars, Text.trim, String.toList_ofList, Text.trimChars_trimChars]

theorem hostOf_trim (addr : String) : hostOf (Text.trim addr) = hostOf addr := by
  simp only [hostOf, hostChars, Text.trim, String.toList_ofList, Text.trimChars_trimChars]

/-! ## The port -/

/-- The digits of a port. -/
def digits (port : UInt16) : List Char := (toString port.toNat).toList

theorem digits_eq (port : UInt16) : digits port = Nat.toDigits 10 port.toNat := by
  rw [digits, Nat.toString_eq_ofList_toDigits, String.toList_ofList]

theorem isDigit_of_mem_digits {port : UInt16} {c : Char} (h : c ∈ digits port) :
    c.isDigit = true := by
  rw [digits_eq] at h
  exact Nat.isDigit_of_mem_toDigits (by decide) (by decide) h

theorem colon_not_mem_digits (port : UInt16) : ':' ∉ digits port := by
  intro h
  have hdigit := isDigit_of_mem_digits h
  revert hdigit
  decide

theorem digits_injective {port port' : UInt16} (h : digits port = digits port') : port = port' := by
  rw [digits_eq, digits_eq] at h
  have hread := congrArg (Nat.ofDigitChars 10 · 0) h
  simp only [Nat.ofDigitChars_ten_toDigits] at hread
  exact UInt16.toNat_inj.mp hread

theorem isBlank_of_isDigit {c : Char} (h : c.isDigit = true) : Text.isBlank c = false := by
  have hbounds : 48 ≤ c.toNat ∧ c.toNat ≤ 57 := by
    simpa [Char.isDigit, UInt32.le_iff_toNat_le] using h
  simp [Text.isBlank]
  omega

/-! ## What stands in front of it -/

/-- The host without the blanks around it, in brackets if it holds a colon and does not begin with
a bracket. -/
def front (host : List Char) : List Char :=
  let host := Text.trimChars host
  if host.contains ':' && host.head? != some '[' then '[' :: host ++ [']'] else host

theorem joinChars_eq (host : List Char) (port : UInt16) :
    joinChars host port = front host ++ ':' :: digits port := by
  simp only [joinChars, front]
  split
  · simp [digits]
  · rfl

theorem front_of_colon {host : List Char} (hcolon : ':' ∈ Text.trimChars host)
    (hopen : '[' ∉ host) : front host = '[' :: Text.trimChars host ++ [']'] := by
  have hhead : (Text.trimChars host).head? ≠ some '[' := by
    intro h
    exact hopen (Text.mem_of_mem_trimChars (List.mem_of_head? h))
  simp only [front]
  apply if_pos
  simp [hcolon, hhead]

theorem front_of_noColon {host : List Char} (hcolon : ':' ∉ Text.trimChars host) :
    front host = Text.trimChars host := by
  simp only [front]
  apply if_neg
  simp [hcolon]

theorem isBlank_of_head?_front {host : List Char} {c : Char} (h : (front host).head? = some c) :
    Text.isBlank c = false := by
  simp only [front] at h
  split at h
  · cases h
    decide
  · exact Text.isBlank_of_head?_trimChars h

theorem trimChars_joinChars (host : List Char) (port : UInt16) :
    Text.trimChars (joinChars host port) = joinChars host port := by
  rw [joinChars_eq]
  apply Text.trimChars_of_ends
  · intro c hc
    rw [List.head?_append, List.head?_cons] at hc
    obtain hfront | ⟨-, hcolon⟩ := Option.or_eq_some_iff.mp hc
    · exact isBlank_of_head?_front hfront
    · cases hcolon
      decide
  · intro c hc
    have hne : digits port ≠ [] := by
      rw [digits_eq]
      exact Nat.toDigits_ne_nil
    rw [List.getLast?_append_cons, List.getLast?_cons_of_ne_nil hne] at hc
    exact isBlank_of_isDigit (isDigit_of_mem_digits (List.mem_of_getLast? hc))

/-! ## Taking an address apart -/

theorem bne_of_not_mem {d : Char} {cs : List Char} (h : d ∉ cs) : ∀ c ∈ cs, (c != d) = true := by
  intro c hc
  have hne : c ≠ d := by
    rintro rfl
    exact h hc
  simpa using hne

/-- What is read back to the last colon, and then without it, is what stands before it. -/
theorem before_last_colon (before : List Char) {behind : List Char} (h : ':' ∉ behind) :
    (((before ++ ':' :: behind).reverse.dropWhile (· != ':')).drop 1).reverse = before := by
  have hbehind : ':' ∉ behind.reverse := mt List.mem_reverse.mp h
  rw [List.reverse_append, List.reverse_cons, List.append_assoc,
    List.dropWhile_append_of_pos (bne_of_not_mem hbehind), List.singleton_append,
    List.dropWhile_cons_of_neg (by decide), List.drop_one, List.tail_cons, List.reverse_reverse]

theorem joinChars_inj {host other : List Char} {port port' : UInt16} :
    joinChars host port = joinChars other port' ↔ front host = front other ∧ port = port' := by
  rw [joinChars_eq, joinChars_eq]
  constructor
  · intro h
    have hfront : front host = front other := by
      rw [← before_last_colon (front host) (colon_not_mem_digits port), h,
        before_last_colon (front other) (colon_not_mem_digits port')]
    rw [hfront, List.append_cancel_left_eq, List.cons.injEq] at h
    exact ⟨hfront, digits_injective h.2⟩
  · rintro ⟨hfront, rfl⟩
    rw [hfront]

theorem hostChars_of_brackets {addr inside behind : List Char}
    (haddr : Text.trimChars addr = '[' :: (inside ++ ']' :: behind)) (hclose : ']' ∉ inside) :
    hostChars addr = inside := by
  rw [hostChars, haddr]
  show List.takeWhile (· != ']') (inside ++ ']' :: behind) = inside
  rw [List.takeWhile_append_of_pos (bne_of_not_mem hclose), List.takeWhile_cons_of_neg (by decide),
    List.append_nil]

theorem hostChars_of_colon {addr before behind : List Char}
    (haddr : Text.trimChars addr = before ++ ':' :: behind) (hopen : '[' ∉ before)
    (hbefore : ':' ∉ before) (hbehind : ':' ∉ behind) : hostChars addr = before := by
  rw [hostChars, haddr]
  split
  · rename_i rest hbegins
    -- the bracket would be the first character of the host, or the colon if there is none
    cases before with
    | nil => cases hbegins
    | cons c cs =>
      cases hbegins
      exact absurd List.mem_cons_self hopen
  · simp only [before_last_colon before hbehind]
    apply if_pos
    simp [hbefore]

theorem hostChars_joinChars {host : List Char} (hopen : '[' ∉ host) (hclose : ']' ∉ host)
    (port : UInt16) : hostChars (joinChars host port) = Text.trimChars host := by
  have haddr := (trimChars_joinChars host port).trans (joinChars_eq host port)
  by_cases hcolon : ':' ∈ Text.trimChars host
  · rw [front_of_colon hcolon hopen, List.cons_append, List.cons_append, List.append_assoc,
      List.singleton_append] at haddr
    exact hostChars_of_brackets haddr (mt Text.mem_of_mem_trimChars hclose)
  · rw [front_of_noColon hcolon] at haddr
    exact hostChars_of_colon haddr (mt Text.mem_of_mem_trimChars hopen) hcolon
      (colon_not_mem_digits port)

/-! ## Hosts as they are written -/

/-- No bracket stands in a host. -/
def Unbracketed (host : String) : Prop := '[' ∉ host.toList ∧ ']' ∉ host.toList

instance (host : String) : Decidable (Unbracketed host) := inferInstanceAs (Decidable (_ ∧ _))

variable {written written' host host' : String} {port port' : UInt16}

theorem Unbracketed.trim (h : Unbracketed host) : Unbracketed (Text.trim host) := by
  rw [Unbracketed, Text.trim, String.toList_ofList]
  exact ⟨mt Text.mem_of_mem_trimChars h.1, mt Text.mem_of_mem_trimChars h.2⟩

theorem trim_join (host : String) (port : UInt16) : Text.trim (join host port) = join host port := by
  rw [Text.trim, join, String.toList_ofList, trimChars_joinChars]

theorem join_ne_empty (host : String) (port : UInt16) : join host port ≠ "" := by
  rw [join, joinChars_eq, ne_eq, String.ofList_eq_empty_iff]
  exact List.append_ne_nil_of_right_ne_nil _ (List.cons_ne_nil _ _)

theorem hostOf_join (h : Unbracketed host) (port : UInt16) :
    hostOf (join host port) = Text.trim host := by
  rw [hostOf, join, String.toList_ofList, hostChars_joinChars h.1 h.2, Text.trim]

/-- Hosts without brackets are joined to one address only if they are the same but for blanks
around them, and so are the ports. -/
theorem join_inj (h : Unbracketed host) (h' : Unbracketed host') :
    join host port = join host' port' ↔ Text.trim host = Text.trim host' ∧ port = port' := by
  constructor
  · intro hjoin
    have hhost : Text.trim host = Text.trim host' := by
      rw [← hostOf_join h port, hjoin, hostOf_join h']
    exact ⟨hhost, (joinChars_inj.mp (String.ofList_inj.mp hjoin)).2⟩
  · rintro ⟨hhost, rfl⟩
    rw [← join_trim host, hhost, join_trim]

theorem front_of_bracketed (host : List Char) :
    front ('[' :: host ++ [']']) = '[' :: host ++ [']'] := by
  have htrimmed : Text.trimChars ('[' :: host ++ [']']) = '[' :: host ++ [']'] := by
    apply Text.trimChars_of_ends
    · intro c hc
      cases hc
      decide
    · intro c hc
      rw [List.getLast?_concat] at hc
      cases hc
      decide
  simp only [front, htrimmed]
  apply if_neg
  simp

theorem join_bracketed (h : Unbracketed host) (hcolon : ':' ∈ host.toList)
    (htrimmed : Text.trim host = host) (port : UInt16) :
    join ("[" ++ host ++ "]") port = join host port := by
  have hchars : Text.trimChars host.toList = host.toList := by
    have := congrArg String.toList htrimmed
    rwa [Text.trim, String.toList_ofList] at this
  have hfront : front host.toList = '[' :: host.toList ++ [']'] := by
    rw [front_of_colon (hchars.symm ▸ hcolon) h.1, hchars]
  have hlist : ("[" ++ host ++ "]").toList = '[' :: host.toList ++ [']'] := by simp
  rw [join, join, joinChars_eq, joinChars_eq, hlist, front_of_bracketed, hfront]

-- brackets around any other host are lost when the address is taken apart
example : hostOf (join "[h]" 1) = "h" ∧ join "[h]" 2 ≠ join "h" 2 := by decide

/-- How a host is written in front of a port: as it is, with or without blanks around it, or in
brackets if it holds a colon. -/
inductive Spells (written host : String) : Prop where
  | plain (unbracketed : Unbracketed written) (eq : Text.trim written = host)
  | bracketed (unbracketed : Unbracketed host) (colon : ':' ∈ host.toList)
      (trimmed : Text.trim host = host) (eq : written = "[" ++ host ++ "]")

namespace Spells

theorem unbracketed_host (h : Spells written host) : Unbracketed host := by
  cases h with
  | plain hwritten heq => exact heq ▸ hwritten.trim
  | bracketed hhost => exact hhost

theorem trim_host (h : Spells written host) : Text.trim host = host := by
  cases h with
  | plain _ heq => exact heq ▸ Text.trim_trim written
  | bracketed _ _ htrimmed => exact htrimmed

/-- However a host is written, the address is the same. -/
theorem join_eq (h : Spells written host) (port : UInt16) : join written port = join host port := by
  cases h with
  | plain _ heq => rw [← heq, join_trim]
  | bracketed hhost hcolon htrimmed heq => rw [heq, join_bracketed hhost hcolon htrimmed]

theorem hostOf_join (h : Spells written host) (port : UInt16) :
    hostOf (join written port) = host := by
  rw [h.join_eq, Address.hostOf_join h.unbracketed_host, h.trim_host]

theorem join_inj (h : Spells written host) (h' : Spells written' host') :
    join written port = join written' port' ↔ host = host' ∧ port = port' := by
  rw [h.join_eq, h'.join_eq, Address.join_inj h.unbracketed_host h'.unbracketed_host,
    h.trim_host, h'.trim_host]

/-- The host of an address makes the addresses that the host in the address made. -/
theorem join_hostOf_join (h : Spells written host) (port port' : UInt16) :
    join (hostOf (join written port)) port' = join written port' := by
  rw [h.hostOf_join, h.join_eq]

end Spells

end ReverseTunnel.Address

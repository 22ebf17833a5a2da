import ReverseTunnel.Wire.Payload
import ReverseTunnel.Wire.Stream

/-!
Frames drawn from what has arrived so far.

A complete frame is drawn whatever follows it, and of an incomplete one nothing is drawn.
So of the bytes of several messages one after another, cut off anywhere, exactly the
frames are drawn that are complete (`frames_draw_of_prefix`); and the messages that were
read so far are a beginning of those that all the bytes carry (`Carries.isPrefix`).
-/

namespace ReverseTunnel.Wire

namespace Frame

variable {bs front body rest more : Bytes} {f : Frame} {kind : Kind}

/-- A body leaves room for the header in a frame of the allowed length. -/
def Fits (body : Bytes) : Prop := totalLength body ≤ maxLength

instance decidableFits (body : Bytes) : Decidable (Fits body) :=
  inferInstanceAs (Decidable (totalLength body ≤ maxLength))

/-- The bytes of a frame of a known kind. -/
def bytes (f : Frame) : Bytes := write f.kind.code f.body

theorem append_eq_ok {code : Int16} {output : Bytes} :
    append code body output = .ok bs ↔ Fits body ∧ bs = output ++ write code body := by
  unfold append Fits
  split
  · simp only [reduceCtorEq, false_iff, not_and]
    omega
  · simp only [Except.ok.injEq]
    constructor
    · intro h
      exact ⟨by omega, h.symm⟩
    · rintro ⟨-, rfl⟩
      rfl

theorem readCode_writeCode (code : Int16) :
    ∃ high low, writeCode code = [high, low] ∧ readCode high low = code := by
  obtain ⟨high, low, hcode⟩ : ∃ high low, writeCode code = [high, low] := by
    have h2 : (writeCode code).length = 2 := Bytes.length_be 2 _
    match writeCode code, h2 with
    | [high, low], _ => exact ⟨high, low, rfl⟩
  refine ⟨high, low, hcode, ?_⟩
  have hread : Bytes.ofBE [high, low] = code.toUInt16.toNat := by
    rw [← hcode]
    exact Bytes.ofBE_be 2 _ (code.toUInt16.toNat_lt)
  rw [readCode, hread, UInt16.ofNat_toNat, Int16.toInt16_toUInt16]

theorem bytes_eq (hfits : Fits f.body) :
    ∃ a b c d high low, f.bytes = a :: b :: c :: d :: high :: low :: f.body ∧
      Bytes.ofBE [a, b, c, d] = totalLength f.body ∧ readCode high low = f.kind.code := by
  obtain ⟨high, low, hcode, hread⟩ := readCode_writeCode f.kind.code
  obtain ⟨a, b, c, d, hlength⟩ : ∃ a b c d, Bytes.be 4 (totalLength f.body) = [a, b, c, d] := by
    have h4 := Bytes.length_be 4 (totalLength f.body)
    match Bytes.be 4 (totalLength f.body), h4 with
    | [a, b, c, d], _ => exact ⟨a, b, c, d, rfl⟩
  refine ⟨a, b, c, d, high, low, ?_, ?_, hread⟩
  · rw [bytes, write, hlength, hcode]
    rfl
  · rw [← hlength]
    exact Bytes.ofBE_be 4 _ (Nat.lt_of_le_of_lt hfits (by decide))

theorem decode_header {a b c d high low : UInt8} (tail : Bytes)
    (hlarge : Bytes.ofBE [a, b, c, d] ≤ maxLength) (hshort : headerLength ≤ Bytes.ofBE [a, b, c, d])
    (hkind : readCode high low = kind.code) :
    decode (a :: b :: c :: d :: high :: low :: tail) =
      match Bytes.split? (Bytes.ofBE [a, b, c, d] - headerLength) tail with
      | none => .ok none
      | some (body, rest) => .ok (some (⟨kind, body⟩, rest)) := by
  cases hsplit : Bytes.split? (Bytes.ofBE [a, b, c, d] - headerLength) tail with
  | none =>
    simp only [decode, hkind, Kind.ofCode?_code, hsplit]
    rw [if_neg (by omega), if_neg (by omega)]
  | some cut =>
    simp only [decode, hkind, Kind.ofCode?_code, hsplit]
    rw [if_neg (by omega), if_neg (by omega)]

theorem decode_bytes (hfits : Fits f.body) (rest : Bytes) :
    decode (f.bytes ++ rest) = .ok (some (f, rest)) := by
  obtain ⟨a, b, c, d, high, low, hbytes, hlength, hcode⟩ := bytes_eq hfits
  have htotal : headerLength ≤ totalLength f.body := Nat.le_add_right _ _
  have hbody : totalLength f.body - headerLength = f.body.length := Nat.add_sub_cancel_left _ _
  simp only [hbytes, List.cons_append]
  rw [decode_header _ (hlength ▸ hfits) (hlength ▸ htotal) hcode, hlength, hbody,
    Bytes.split?_append]

theorem decode_of_cut (hfits : Fits f.body) (hcut : front ++ more = f.bytes) (hmore : more ≠ []) :
    decode front = .ok none := by
  obtain ⟨a, b, c, d, high, low, hbytes, hlength, hcode⟩ := bytes_eq hfits
  rw [hbytes] at hcut
  have htotal : headerLength ≤ totalLength f.body := Nat.le_add_right _ _
  -- how much of the header is there
  match front, hcut with
  | [], _ | [_], _ | [_, _], _ | [_, _, _], _ => rfl
  | [_, _, _, _], hcut | [_, _, _, _, _], hcut =>
    simp only [List.cons_append, List.nil_append, List.cons.injEq] at hcut
    obtain ⟨rfl, rfl, rfl, rfl, -⟩ := hcut
    simp only [decode]
    rw [if_neg (hlength ▸ Nat.not_lt.mpr hfits), if_neg (hlength ▸ Nat.not_lt.mpr htotal)]
  | _ :: _ :: _ :: _ :: _ :: _ :: tail, hcut =>
    simp only [List.cons_append, List.cons.injEq] at hcut
    obtain ⟨rfl, rfl, rfl, rfl, rfl, rfl, htail⟩ := hcut
    have hshort : tail.length < totalLength f.body - headerLength := by
      have hlen := congrArg List.length htail
      have hpos := List.length_pos_iff.mpr hmore
      rw [List.length_append] at hlen
      simp only [totalLength, headerLength]
      omega
    rw [decode_header tail (hlength ▸ hfits) (hlength ▸ htotal) hcode, hlength,
      Bytes.split?_eq_none_iff.mpr hshort]

theorem writeCode_readCode (high low : UInt8) : writeCode (readCode high low) = [high, low] := by
  have hlt : Bytes.ofBE [high, low] < 65536 := Bytes.ofLE_lt [low, high]
  have hcode : (readCode high low).toUInt16.toNat = Bytes.ofBE [high, low] := by
    rw [readCode, UInt16.toUInt16_toInt16, UInt16.toNat_ofNat']
    exact Nat.mod_eq_of_lt hlt
  rw [writeCode, hcode]
  exact Bytes.be_ofBE [high, low]

/-- Only complete frames are drawn. -/
theorem eq_bytes_of_decode (h : decode bs = .ok (some (f, rest))) :
    Fits f.body ∧ bs = f.bytes ++ rest := by
  unfold decode at h
  split at h
  · rename_i a b c d tail
    dsimp only at h
    split at h
    · cases h
    · rename_i hlarge
      split at h
      · cases h
      · rename_i hshort
        split at h
        · rename_i high low tail
          split at h
          · cases h
          · rename_i kind hkind
            split at h
            · cases h
            · rename_i body rest' hsplit
              cases h
              -- the header and the body that were read are those that are written
              obtain ⟨htail, hbody⟩ := Bytes.eq_append_of_split? hsplit
              have htotal : totalLength body = Bytes.ofBE [a, b, c, d] := by
                simp only [totalLength, headerLength] at hshort hbody ⊢
                omega
              refine ⟨Nat.le_trans (Nat.le_of_eq htotal) (Nat.not_lt.mp hlarge), ?_⟩
              rw [bytes, write, htotal, ← Kind.ofCode?_eq_some_iff.mp hkind, writeCode_readCode,
                htail]
              simp only [show Bytes.be 4 (Bytes.ofBE [a, b, c, d]) = [a, b, c, d] from
                Bytes.be_ofBE [a, b, c, d], List.cons_append, List.nil_append]
        · cases h
  · cases h

/-- What is drawn does not depend on what follows. -/
theorem decode_append (h : decode bs = .ok (some (f, rest))) (more : Bytes) :
    decode (bs ++ more) = .ok (some (f, rest ++ more)) := by
  obtain ⟨hfits, rfl⟩ := eq_bytes_of_decode h
  rw [List.append_assoc]
  exact decode_bytes hfits _

end Frame

/-! ## All that is complete -/

variable {bs rest more : Bytes} {f : Frame} {fs : List Frame} {m : Message} {ms : List Message}

theorem drawFrom_eq (acc : List Frame) (bs : Bytes) :
    drawFrom acc bs = { draw bs with frames := acc.reverse ++ (draw bs).frames } := by
  induction hn : bs.length using Nat.strongRecOn generalizing acc bs with
  | ind n ih =>
    subst hn
    rw [draw, drawFrom, drawFrom]
    split
    · simp
    · simp
    · rename_i f rest hdecode
      have hshrinks := Frame.decode_shrinks hdecode
      rw [ih _ hshrinks (f :: acc) rest rfl, ih _ hshrinks [f] rest rfl]
      simp

theorem draw_of_none (h : Frame.decode bs = .ok none) : draw bs = ⟨[], bs, none⟩ := by
  rw [draw, drawFrom]
  split
  · rename_i e herror
    rw [herror] at h
    cases h
  · rfl
  · rename_i f rest hsome
    rw [hsome] at h
    cases h

theorem draw_of_some (h : Frame.decode bs = .ok (some (f, rest))) :
    draw bs = { draw rest with frames := f :: (draw rest).frames } := by
  rw [draw, drawFrom]
  split
  · rename_i e herror
    rw [herror] at h
    cases h
  · rename_i hnone
    rw [hnone] at h
    cases h
  · rename_i f' rest' hsome
    rw [hsome] at h
    cases h
    exact drawFrom_eq [f] rest

/-- Of frames one after another, cut off anywhere, those are drawn that are complete. -/
theorem frames_draw_of_prefix (fs : List Frame) : ∀ bs : Bytes, (∀ f ∈ fs, Frame.Fits f.body) →
    bs <+: fs.flatMap Frame.bytes → (draw bs).frames <+: fs ∧ (draw bs).failure = none := by
  induction fs with
  | nil =>
    intro bs _ hprefix
    rw [List.flatMap_nil, List.prefix_nil] at hprefix
    subst hprefix
    rw [draw_of_none rfl]
    exact ⟨List.nil_prefix, rfl⟩
  | cons f fs ih =>
    intro bs hfits ⟨more, hmore⟩
    have hf := hfits f List.mem_cons_self
    rw [List.flatMap_cons, List.append_eq_append_iff] at hmore
    rcases hmore with ⟨cut, hcut, -⟩ | ⟨rest, rfl, hrest⟩
    · by_cases hnil : cut = []
      · subst hnil
        rw [List.append_nil] at hcut
        rw [← hcut, ← List.append_nil f.bytes, draw_of_some (Frame.decode_bytes hf []),
          draw_of_none rfl]
        exact ⟨List.prefix_append [f] fs, rfl⟩
      · rw [draw_of_none (Frame.decode_of_cut hf hcut.symm hnil)]
        exact ⟨List.nil_prefix, rfl⟩
    · obtain ⟨hframes, hfailure⟩ := ih rest (fun g hg => hfits g (List.mem_cons_of_mem f hg))
        ⟨more, hrest.symm⟩
      rw [draw_of_some (Frame.decode_bytes hf rest)]
      exact ⟨List.cons_prefix_cons.mpr ⟨rfl, hframes⟩, hfailure⟩

/-! ## The messages that bytes carry -/

/-- The frame of a message. -/
def Message.frame (m : Message) : Frame := ⟨m.kind, m.body⟩

/-- The bytes of several messages in order. -/
def bytesOf (ms : List Message) : Bytes := (ms.map Message.frame).flatMap Frame.bytes

theorem bytesOf_cons (m : Message) (ms : List Message) :
    bytesOf (m :: ms) = m.frame.bytes ++ bytesOf ms := by
  rw [bytesOf, List.map_cons, List.flatMap_cons, bytesOf]

theorem bytesOf_append (ms ms' : List Message) : bytesOf (ms ++ ms') = bytesOf ms ++ bytesOf ms' := by
  simp [bytesOf]

theorem bytesOf_snoc (ms : List Message) (m : Message) :
    bytesOf (ms ++ [m]) = bytesOf ms ++ m.frame.bytes := by
  simp [bytesOf]

/-- Of messages one after another, cut off anywhere, those are drawn that are complete. -/
theorem messages_drawn (hfits : ∀ m ∈ ms, Frame.Fits m.body) (h : bs <+: bytesOf ms) :
    (∃ complete, complete <+: ms ∧ (draw bs).frames = complete.map Message.frame) ∧
      (draw bs).failure = none := by
  have hfits' : ∀ f ∈ ms.map Message.frame, Frame.Fits f.body := by
    intro f hf
    obtain ⟨m, hm, rfl⟩ := List.mem_map.mp hf
    exact hfits m hm
  obtain ⟨hframes, hfailure⟩ := frames_draw_of_prefix _ bs hfits' h
  refine ⟨⟨ms.take (draw bs).frames.length, List.take_prefix _ ms, ?_⟩, hfailure⟩
  rw [List.map_take]
  exact List.prefix_iff_eq_take.mp hframes

/-- The messages of frames, up to the first that carries none. -/
def readable : List Frame → List Message
  | [] => []
  | f :: rest =>
    match Message.ofBody f.kind f.body with
    | .ok m => m :: readable rest
    | .error _ => []

/-- The messages that a byte string carries, up to the first violation. -/
def messagesIn (bs : Bytes) : List Message := readable (draw bs).frames

/-- A byte string begins with frames that carry the given messages; then comes the rest. -/
inductive Carries : Bytes → List Message → Bytes → Prop
  | nil (bs : Bytes) : Carries bs [] bs
  | cons {bs rest rest' : Bytes} {f : Frame} {m : Message} {ms : List Message}
      (hdecode : Frame.decode bs = .ok (some (f, rest)))
      (hbody : Message.ofBody f.kind f.body = .ok m) (h : Carries rest ms rest') :
      Carries bs (m :: ms) rest'

theorem Carries.append (h : Carries bs ms rest) (more : Bytes) :
    Carries (bs ++ more) ms (rest ++ more) := by
  induction h with
  | nil bs => exact .nil _
  | cons hdecode hbody _ ih => exact .cons (Frame.decode_append hdecode more) hbody ih

theorem Carries.snoc {rest' : Bytes} (h : Carries bs ms rest)
    (hdecode : Frame.decode rest = .ok (some (f, rest')))
    (hbody : Message.ofBody f.kind f.body = .ok m) : Carries bs (ms ++ [m]) rest' := by
  induction h with
  | nil bs => exact .cons hdecode hbody (.nil _)
  | cons hdecode' hbody' _ ih => exact .cons hdecode' hbody' (ih hdecode)

theorem Carries.messagesIn_eq (h : Carries bs ms rest) : messagesIn bs = ms ++ messagesIn rest := by
  induction h with
  | nil bs => rfl
  | cons hdecode hbody _ ih =>
    rw [List.cons_append, ← ih]
    simp only [messagesIn, draw_of_some hdecode, readable, hbody]

theorem Carries.isPrefix (h : Carries bs ms rest) : ms <+: messagesIn bs :=
  h.messagesIn_eq ▸ List.prefix_append _ _

end ReverseTunnel.Wire

import ReverseTunnel.Proofs.Wire.Fragments

/-!
What is taken for a frame, and what is refused.

What is proved, of all byte strings (`takes_exactly_frames`):
1. What has arrived is refused for what its first bytes declare, as soon as these bytes are there
   (`Violates`), a frame is taken from it exactly if it begins with one that can be written, and
   in all other cases more has to arrive (`decode_eq_error_iff`, `decode_eq_frame_iff`).
2. A decoder that works on an accumulator check by check (`attempt`) comes to the same and leaves
   all in it unless it has taken a frame; in particular the code of a frame that was split off is
   known.
3. What more has to arrive for is shorter than a frame may be (`length_lt_of_waits`).

What is not said: what the payload of a frame means, which is for `Proofs.Wire.Payloads`.
-/

namespace ReverseTunnel.Wire

namespace Frame

variable {acc body rest bs : Bytes} {e : FrameError} {f : Frame} {code : Int16}

/-! ## What the first bytes say -/

/-- The length that the first four bytes declare. -/
def declared (acc : Bytes) : Nat := Bytes.ofBE (acc.take 4)

/-- The code in the two bytes behind the length. -/
def codeIn (acc : Bytes) : Int16 := (UInt16.ofNat (Bytes.ofBE ((acc.drop 4).take 2))).toInt16

/-- What is wrong with what has arrived: a length that is not allowed once the length is there,
and a code that no kind has once the header is. -/
inductive Violates (acc : Bytes) : FrameError → Prop
  | tooLarge (hlength : 4 ≤ acc.length) (hlarge : maxLength < declared acc) :
      Violates acc (.tooLarge (declared acc))
  | tooShort (hlength : 4 ≤ acc.length) (hshort : declared acc < headerLength) :
      Violates acc (.tooShort (declared acc))
  | unknownKind (hheader : headerLength ≤ acc.length) (hlarge : declared acc ≤ maxLength)
      (hshort : headerLength ≤ declared acc) (hcode : ∀ k : Kind, k.code ≠ codeIn acc) :
      Violates acc (.unknownKind (codeIn acc))

theorem ofCode?_eq_none_iff : Kind.ofCode? code = none ↔ ∀ k : Kind, k.code ≠ code := by
  constructor
  · rintro h k rfl
    rw [Kind.ofCode?_code] at h
    cases h
  · intro h
    cases hkind : Kind.ofCode? code with
    | none => rfl
    | some k => exact absurd (Kind.ofCode?_eq_some_iff.mp hkind).symm (h k)

theorem exists_header (h : headerLength ≤ acc.length) :
    ∃ a b c d high low tail, acc = a :: b :: c :: d :: high :: low :: tail := by
  match acc, h with
  | a :: b :: c :: d :: high :: low :: tail, _ => exact ⟨a, b, c, d, high, low, tail, rfl⟩

/-! ## Refusing -/

theorem violates_of_decode (h : decode acc = .error e) : Violates acc e := by
  unfold decode at h
  split at h
  · rename_i a b c d tail
    have hlength : 4 ≤ (a :: b :: c :: d :: tail).length := by simp
    dsimp only at h
    split at h
    · rename_i hlarge
      cases h
      exact .tooLarge hlength hlarge
    · rename_i hlarge
      split at h
      · rename_i hshort
        cases h
        exact .tooShort hlength hshort
      · rename_i hshort
        split at h
        · rename_i high low tail
          split at h
          · rename_i hcode
            cases h
            exact .unknownKind (by simp [headerLength]) (Nat.not_lt.mp hlarge) (Nat.not_lt.mp hshort)
              (ofCode?_eq_none_iff.mp hcode)
          · split at h <;> cases h
        · cases h
  · cases h

theorem decode_of_violates (h : Violates acc e) : decode acc = .error e := by
  have hbytes : 4 ≤ acc.length → ∃ a b c d tail, acc = a :: b :: c :: d :: tail := by
    intro hlength
    match acc, hlength with
    | a :: b :: c :: d :: tail, _ => exact ⟨a, b, c, d, tail, rfl⟩
  cases h with
  | tooLarge hlength hlarge =>
    obtain ⟨a, b, c, d, tail, rfl⟩ := hbytes hlength
    exact if_pos hlarge
  | tooShort hlength hshort =>
    obtain ⟨a, b, c, d, tail, rfl⟩ := hbytes hlength
    have hlarge : ¬maxLength < declared (a :: b :: c :: d :: tail) := fun hlarge =>
      absurd (Nat.lt_trans hlarge hshort) (by decide)
    exact (if_neg hlarge).trans (if_pos hshort)
  | unknownKind hheader hlarge hshort hcode =>
    obtain ⟨a, b, c, d, high, low, tail, rfl⟩ := exists_header hheader
    have hnone : Kind.ofCode? (readCode high low) = none := ofCode?_eq_none_iff.mpr hcode
    refine (if_neg (Nat.not_lt.mpr hlarge)).trans ((if_neg (Nat.not_lt.mpr hshort)).trans ?_)
    simp only [hnone]
    rfl

theorem decode_eq_error_iff : decode acc = .error e ↔ Violates acc e :=
  ⟨violates_of_decode, decode_of_violates⟩

/-! ## Taking a frame -/

/-- A frame is taken exactly if what has arrived begins with its written form. -/
theorem decode_eq_frame_iff : decode acc = .ok (some (f, rest)) ↔
    ∃ written, append f.kind.code f.body [] = .ok written ∧ acc = written ++ rest := by
  constructor
  · intro h
    obtain ⟨hfits, hacc⟩ := eq_bytes_of_decode h
    exact ⟨f.bytes, append_eq_ok.mpr ⟨hfits, rfl⟩, hacc⟩
  · rintro ⟨written, hwritten, rfl⟩
    obtain ⟨hfits, rfl⟩ := append_eq_ok.mp hwritten
    exact decode_bytes hfits rest

theorem decode_eq_none_iff : decode acc = .ok none ↔
    (∀ e, ¬Violates acc e) ∧
      ∀ (f : Frame) (written rest : Bytes), append f.kind.code f.body [] = .ok written →
        acc ≠ written ++ rest := by
  constructor
  · intro h
    refine ⟨fun e he => ?_, fun f written rest hwritten hacc => ?_⟩
    · cases h.symm.trans (decode_eq_error_iff.mpr he)
    · cases h.symm.trans (decode_eq_frame_iff.mpr ⟨written, hwritten, hacc⟩)
  · rintro ⟨hsound, hincomplete⟩
    cases h : decode acc with
    | error e => exact absurd (decode_eq_error_iff.mp h) (hsound e)
    | ok drawn =>
      match drawn with
      | none => rfl
      | some (f, rest) =>
        obtain ⟨written, hwritten, hacc⟩ := decode_eq_frame_iff.mp h
        exact absurd hacc (hincomplete f written rest hwritten)

/-! ## On an accumulator -/

/-- Once a header of a known kind and an allowed length is there, a frame is taken as soon as its
last byte is. -/
theorem decode_of_header {kind : Kind} (hheader : headerLength ≤ acc.length)
    (hlarge : declared acc ≤ maxLength) (hshort : headerLength ≤ declared acc)
    (hcode : Kind.ofCode? (codeIn acc) = some kind) :
    decode acc = .ok (if acc.length < declared acc then none else
      some (⟨kind, (acc.take (declared acc)).drop headerLength⟩, acc.drop (declared acc))) := by
  obtain ⟨a, b, c, d, high, low, tail, rfl⟩ := exists_header hheader
  obtain ⟨room, hroom⟩ := Nat.exists_eq_add_of_le' hshort
  have htotal : Bytes.ofBE [a, b, c, d] = room + headerLength := hroom
  rw [decode_header tail hlarge hshort (Kind.ofCode?_eq_some_iff.mp hcode), htotal,
    Nat.add_sub_cancel, hroom]
  have hlength : (a :: b :: c :: d :: high :: low :: tail).length = tail.length + headerLength := rfl
  rw [hlength]
  split
  · rename_i hnone
    rw [if_pos (Nat.add_lt_add_right (Bytes.split?_eq_none_iff.mp hnone) _)]
  · rename_i body rest hsome
    obtain ⟨rfl, rfl⟩ := Bytes.eq_append_of_split? hsome
    rw [if_neg (by rw [List.length_append]; omega)]
    have htake : (a :: b :: c :: d :: high :: low :: (body ++ rest)).take (body.length + headerLength) =
        a :: b :: c :: d :: high :: low :: body := by
      simp [headerLength]
    have hdrop : (a :: b :: c :: d :: high :: low :: (body ++ rest)).drop (body.length + headerLength) =
        rest := by
      simp [headerLength]
    rw [htake, hdrop]
    rfl

theorem decode_of_part (hpart : acc.length < headerLength) (hlarge : declared acc ≤ maxLength)
    (hshort : headerLength ≤ declared acc) : decode acc = .ok none := by
  refine decode_eq_none_iff.mpr ⟨fun e he => ?_, fun f written rest hwritten hacc => ?_⟩
  · cases he with
    | tooLarge _ h => omega
    | tooShort _ h => omega
    | unknownKind h _ _ _ => omega
  · -- no frame is shorter than its header
    obtain ⟨-, rfl⟩ := append_eq_ok.mp hwritten
    have hlength := congrArg List.length hacc
    simp only [List.nil_append, write, writeCode, List.length_append, Bytes.length_be] at hlength
    simp only [headerLength] at hpart
    omega

/-- One attempt to take a frame from an accumulator, check by check: what comes of it, and what
it leaves. The code is looked up once more in the frame that was split off. -/
def attempt (acc : Bytes) : Except FrameError (Option Frame) × Bytes :=
  if acc.length < 4 then (.ok none, acc)
  else if maxLength < declared acc then (.error (.tooLarge (declared acc)), acc)
  else if declared acc < headerLength then (.error (.tooShort (declared acc)), acc)
  else if headerLength ≤ acc.length ∧ Kind.ofCode? (codeIn acc) = none then
    (.error (.unknownKind (codeIn acc)), acc)
  else if acc.length < declared acc then (.ok none, acc)
  else
    let frame := acc.take (declared acc)
    let rest := acc.drop (declared acc)
    match Kind.ofCode? (codeIn frame) with
    | none => (.error (.unknownKind (codeIn frame)), rest)
    | some kind => (.ok (some ⟨kind, frame.drop headerLength⟩), rest)

/-- The accumulator is used up by the frame that is taken, and by nothing else. -/
def leaving (acc : Bytes) :
    Except FrameError (Option (Frame × Bytes)) → Except FrameError (Option Frame) × Bytes
  | .ok (some (f, rest)) => (.ok (some f), rest)
  | .ok none => (.ok none, acc)
  | .error e => (.error e, acc)

theorem attempt_eq (acc : Bytes) : attempt acc = leaving acc (decode acc) := by
  unfold attempt
  split
  · rename_i hlength
    match acc, hlength with
    | [], _ | [_], _ | [_, _], _ | [_, _, _], _ => rfl
  · rename_i hlength
    have hlength := Nat.not_lt.mp hlength
    split
    · rename_i hlarge
      rw [decode_of_violates (.tooLarge hlength hlarge)]
      rfl
    · rename_i hlarge
      split
      · rename_i hshort
        rw [decode_of_violates (.tooShort hlength hshort)]
        rfl
      · rename_i hshort
        have hlarge := Nat.not_lt.mp hlarge
        have hshort := Nat.not_lt.mp hshort
        split
        · rename_i hkind
          rw [decode_of_violates (.unknownKind hkind.1 hlarge hshort (ofCode?_eq_none_iff.mp hkind.2))]
          rfl
        · rename_i hkind
          rcases Nat.lt_or_ge acc.length headerLength with hpart | hheader
          · rw [decode_of_part hpart hlarge hshort, if_pos (Nat.lt_of_lt_of_le hpart hshort)]
            rfl
          · cases hcode : Kind.ofCode? (codeIn acc) with
            | none => exact absurd ⟨hheader, hcode⟩ hkind
            | some kind =>
              rw [decode_of_header hheader hlarge hshort hcode]
              split
              · rfl
              · -- the code that is looked up again is the same
                have hsame : codeIn (acc.take (declared acc)) = codeIn acc := by
                  rw [codeIn, codeIn, List.drop_take, List.take_take,
                    Nat.min_eq_left (by simp only [headerLength] at hshort; omega)]
                simp only [hsame, hcode]
                rfl

theorem length_lt_of_waits (h : decode acc = .ok none) : acc.length < maxLength := by
  obtain ⟨hsound, -⟩ := decode_eq_none_iff.mp h
  rcases Nat.lt_or_ge acc.length headerLength with hpart | hheader
  · exact Nat.lt_trans hpart (by decide)
  · have hlength : 4 ≤ acc.length := Nat.le_trans (by decide) hheader
    have hlarge : declared acc ≤ maxLength :=
      Nat.not_lt.mp fun hlarge => hsound _ (.tooLarge hlength hlarge)
    have hshort : headerLength ≤ declared acc :=
      Nat.not_lt.mp fun hshort => hsound _ (.tooShort hlength hshort)
    cases hcode : Kind.ofCode? (codeIn acc) with
    | none =>
      exact absurd (.unknownKind hheader hlarge hshort (ofCode?_eq_none_iff.mp hcode)) (hsound _)
    | some kind =>
      rw [decode_of_header hheader hlarge hshort hcode] at h
      split at h
      · rename_i hcut
        exact Nat.lt_of_lt_of_le hcut hlarge
      · cases h

/-! ## Writing -/

/-- Writing a frame into an output buffer, piece by piece: the failure if there is one, and the
buffer afterwards. -/
def writeInto (code : Int16) (body buffer : Bytes) : Option FrameError × Bytes :=
  if maxLength < totalLength body then
    (some (.tooLarge (min (totalLength body) 4294967295)), buffer)
  else
    let buffer := buffer ++ Bytes.be 4 (totalLength body)
    let buffer := buffer ++ writeCode code
    (none, buffer ++ body)

/-- The output buffer is changed by a frame that is appended, and by nothing else. -/
def keeping (buffer : Bytes) : Except FrameError Bytes → Option FrameError × Bytes
  | .ok written => (none, written)
  | .error e => (some e, buffer)

theorem writeInto_eq (code : Int16) (body buffer : Bytes) :
    writeInto code body buffer = keeping buffer (append code body buffer) := by
  unfold writeInto append
  split
  · rfl
  · simp only [keeping, write, List.append_assoc]

theorem unpack?_write (code : Int16) (hfits : Fits body) :
    unpack? (write code body) = some (totalLength body, code, body) := by
  obtain ⟨high, low, hcode, hread⟩ := readCode_writeCode code
  obtain ⟨a, b, c, d, hlength⟩ : ∃ a b c d, Bytes.be 4 (totalLength body) = [a, b, c, d] := by
    have h4 := Bytes.length_be 4 (totalLength body)
    match Bytes.be 4 (totalLength body), h4 with
    | [a, b, c, d], _ => exact ⟨a, b, c, d, rfl⟩
  have htotal : Bytes.ofBE [a, b, c, d] = totalLength body :=
    hlength ▸ Bytes.ofBE_be 4 _ (Nat.lt_of_le_of_lt hfits (by decide))
  rw [write, hlength, hcode]
  show some (Bytes.ofBE [a, b, c, d], readCode high low, body) = _
  rw [htotal, hread]

end Frame

/-! ## What is left pending -/

/-- What is left pending without a violation waits for more. -/
theorem decode_pending : ∀ bs, (draw bs).failure = none → Frame.decode (draw bs).pending = .ok none := by
  refine draw_induction ?waits ?fails ?draws
  case waits =>
    intro bs hdecode _
    rw [draw_of_none hdecode]
    exact hdecode
  case fails =>
    intro bs e hdecode hsound
    rw [draw_of_error hdecode] at hsound
    cases hsound
  case draws =>
    intro bs f rest hdecode ih hsound
    rw [draw_of_some hdecode] at hsound ⊢
    exact ih hsound

namespace Stream

theorem length_pending_lt (chunks : List Bytes) (h : (feedAll {} chunks).2.failure = none) :
    (feedAll {} chunks).2.pending.length < Frame.maxLength := by
  obtain ⟨-, hfailure, hpending⟩ := feedAll_eq chunks {} rfl (draw_of_none rfl)
  have hsound := hfailure.symm.trans h
  rw [hpending hsound]
  exact Frame.length_lt_of_waits (decode_pending _ hsound)

end Stream

/-- What has arrived is taken for a frame exactly if it begins with the frame as it is written,
and what follows it is left; it is refused exactly for what is wrong with it; and in all other
cases more has to arrive. A decoder that works on an accumulator check by check comes to the same
and leaves everything in it unless a frame is taken. Of chunks without a violation less is left
pending than the longest frame has bytes. A frame is appended to what is already in the output
exactly if it is not too long, and then it is split again into its length, its code and its body;
what is in the output stays as it was if the frame is refused. -/
theorem takes_exactly_frames :
    (∀ acc f rest, Frame.decode acc = .ok (some (f, rest)) ↔
      ∃ written, Frame.append f.kind.code f.body [] = .ok written ∧ acc = written ++ rest) ∧
    (∀ acc e, Frame.decode acc = .error e ↔ Frame.Violates acc e) ∧
    (∀ acc, Frame.decode acc = .ok none ↔ (∀ e, ¬Frame.Violates acc e) ∧
      ∀ (f : Frame) (written rest : Bytes), Frame.append f.kind.code f.body [] = .ok written →
        acc ≠ written ++ rest) ∧
    (∀ acc, Frame.attempt acc = Frame.leaving acc (Frame.decode acc)) ∧
    (∀ chunks, (Stream.feedAll {} chunks).2.failure = none →
      (Stream.feedAll {} chunks).2.pending.length < Frame.maxLength) ∧
    (∀ code body buffer, Frame.append code body buffer =
      if Frame.headerLength + body.length ≤ Frame.maxLength then
        .ok (buffer ++ Frame.write code body)
      else .error (.tooLarge (min (Frame.headerLength + body.length) 4294967295))) ∧
    (∀ code body buffer,
      Frame.writeInto code body buffer = Frame.keeping buffer (Frame.append code body buffer)) ∧
    (∀ code body buffer bs, Frame.append code body buffer = .ok bs →
      Frame.unpack? (bs.drop buffer.length) = some (Frame.headerLength + body.length, code, body)) := by
  refine ⟨fun _ _ _ => Frame.decode_eq_frame_iff, fun _ _ => Frame.decode_eq_error_iff,
    fun _ => Frame.decode_eq_none_iff, Frame.attempt_eq, Stream.length_pending_lt, ?_,
    Frame.writeInto_eq, ?_⟩
  · intro code body buffer
    show (if _ < Frame.headerLength + body.length then _ else _) = _
    by_cases hfits : Frame.headerLength + body.length ≤ Frame.maxLength
    · rw [if_neg (Nat.not_lt.mpr hfits), if_pos hfits]
    · rw [if_pos (Nat.not_le.mp hfits), if_neg hfits]
      rfl
  · intro code body buffer bs happend
    obtain ⟨hfits, rfl⟩ := Frame.append_eq_ok.mp happend
    rw [List.drop_left, Frame.unpack?_write code hfits]
    rfl

/-- A heartbeat of which only the header has arrived waits for its body; appended behind one
byte, a frame of a code that no kind has is split again behind that byte. -/
theorem takes_exactly_frames_header :
    (Stream.feedAll {} [[0, 0, 0], [9, 0, 3]]).2.failure = none ∧
      (Stream.feedAll {} [[0, 0, 0], [9, 0, 3]]).2.pending.length < Frame.maxLength ∧
      Frame.append (-3) [1, 2] [255] = .ok [255, 0, 0, 0, 8, 255, 253, 1, 2] ∧
      Frame.unpack? [0, 0, 0, 8, 255, 253, 1, 2] = some (8, -3, [1, 2]) := by
  obtain ⟨-, -, -, -, hpending, -, -, hunpack⟩ := takes_exactly_frames
  have hsound : (Stream.feedAll {} [[0, 0, 0], [9, 0, 3]]).2.failure = none := by
    obtain ⟨-, hfailure, -⟩ :=
      Stream.feedAll_eq [[0, 0, 0], [9, 0, 3]] {} rfl (draw_of_none rfl)
    rw [hfailure]
    exact congrArg Drawn.failure (draw_of_none rfl)
  have happend : Frame.append (-3) [1, 2] [255] = .ok [255, 0, 0, 0, 8, 255, 253, 1, 2] :=
    Frame.append_eq_ok.mpr ⟨by decide, by decide⟩
  exact ⟨hsound, hpending _ hsound, happend, hunpack _ _ _ _ happend⟩

end ReverseTunnel.Wire

import ReverseTunnel.Proofs.Wire.Fields

/-!
A payload has one form.

What is proved (`payloads_are_canonical`): each reader takes nothing but what its writer puts
there (`TakesOnly`). A number has one form of its width, a truth value and the mark of an optional
field are 0 or 1 and no other byte, a length is followed by as many bytes, and a text is the only
one that its bytes write. So the fields of a message or a request that is read begin what it is
read from (`Message.takesOnly_readFields`, `Request.takesOnly_readFields`), and a payload is read
as a message exactly if it begins with the body of that message.

What is assumed: nothing of the payload. That lengths fit into eight bytes (`LengthsFit`) is part
of what is proved of a message that is read.

What is not said: with which error a payload is refused that has the right version but no form.
-/

namespace ReverseTunnel.Wire

variable {α β : Type}

namespace Field

variable {bs rest : Bytes} {read : Reader α} {write : α → Bytes} {fits : α → Prop}

/-- A reader takes nothing but written forms, each of a value that fits. -/
def TakesOnly (read : Reader α) (write : α → Bytes) (fits : α → Prop) : Prop :=
  ∀ bs v rest, read bs = .ok (v, rest) → fits v ∧ bs = write v ++ rest

/-- Who reads a field and then goes on had the field in front and goes on with the rest. -/
theorem TakesOnly.bind (h : TakesOnly read write fits) {next : α × Bytes → Except FieldError β}
    {r : β} (hr : (read bs >>= next) = .ok r) :
    ∃ v rest, fits v ∧ bs = write v ++ rest ∧ next (v, rest) = .ok r := by
  cases hread : read bs with
  | error e =>
    rw [hread] at hr
    cases hr
  | ok taken =>
    obtain ⟨v, rest⟩ := taken
    rw [hread] at hr
    obtain ⟨hfits, hbs⟩ := h bs v rest hread
    exact ⟨v, rest, hfits, hbs, hr⟩

theorem takesOnly_readNat (width : Nat) :
    TakesOnly (readNat width) (Bytes.le width) (· < Bytes.capacity width) := by
  intro bs n rest h
  unfold readNat at h
  split at h
  · rename_i front rest' hsplit
    cases h
    obtain ⟨hbs, hlength⟩ := Bytes.eq_append_of_split? hsplit
    subst hlength
    exact ⟨Bytes.ofLE_lt front, by rw [Bytes.le_ofLE, hbs]⟩
  · cases h

/-- Any value may be in a field that has one width. -/
abbrev Any (_ : α) : Prop := True

theorem TakesOnly.map (h : TakesOnly read write fits) {f : α → β} {read' : Reader β}
    {write' : β → Bytes} (hread : ∀ bs, read' bs = (read bs).map (Prod.map f id))
    (hwrite : ∀ v, fits v → write' (f v) = write v) : TakesOnly read' write' Any := by
  intro bs v rest hr
  rw [hread] at hr
  cases hv : read bs with
  | error e =>
    rw [hv] at hr
    cases hr
  | ok taken =>
    obtain ⟨u, tail⟩ := taken
    rw [hv] at hr
    cases hr
    obtain ⟨hfits, hbs⟩ := h bs u tail hv
    exact ⟨trivial, hbs.trans (by rw [hwrite u hfits]; rfl)⟩

theorem takesOnly_readU16 : TakesOnly readU16 writeU16 Any :=
  (takesOnly_readNat 2).map (f := UInt16.ofNat)
    (fun bs => by unfold readU16; cases readNat 2 bs <;> rfl)
    fun n hn => by rw [writeU16, UInt16.toNat_ofNat_of_lt' hn]

theorem takesOnly_readU32 : TakesOnly readU32 writeU32 Any :=
  (takesOnly_readNat 4).map (f := UInt32.ofNat)
    (fun bs => by unfold readU32; cases readNat 4 bs <;> rfl)
    fun n hn => by rw [writeU32, UInt32.toNat_ofNat_of_lt' hn]

theorem takesOnly_readU64 : TakesOnly readU64 writeU64 Any :=
  (takesOnly_readNat 8).map (f := UInt64.ofNat)
    (fun bs => by unfold readU64; cases readNat 8 bs <;> rfl)
    fun n hn => by rw [writeU64, UInt64.toNat_ofNat_of_lt' hn]

theorem takesOnly_readBool : TakesOnly readBool writeBool Any := by
  intro bs v rest h
  unfold readBool at h
  split at h
  · cases h
  · split at h
    · rename_i hzero
      cases h
      exact ⟨trivial, by rw [hzero]; rfl⟩
    · split at h
      · rename_i hone
        cases h
        exact ⟨trivial, by rw [hone]; rfl⟩
      · cases h

theorem eq_writeBytes {n : Nat} {tail front : Bytes} (hlength : readNat 8 bs = .ok (n, tail))
    (hsplit : Bytes.split? n tail = some (front, rest)) :
    front.length < Bytes.capacity 8 ∧ bs = writeBytes front ++ rest := by
  obtain ⟨hlt, hbs⟩ := takesOnly_readNat 8 bs n tail hlength
  obtain ⟨htail, hfront⟩ := Bytes.eq_append_of_split? hsplit
  refine ⟨hfront ▸ hlt, ?_⟩
  rw [hbs, htail, writeBytes, hfront, List.append_assoc]

theorem takesOnly_readBytes :
    TakesOnly readBytes writeBytes fun bs => bs.length < Bytes.capacity 8 := by
  intro bs v rest h
  unfold readBytes at h
  split at h
  · cases h
  · rename_i n tail hlength
    split at h
    · rename_i front rest' hsplit
      cases h
      exact eq_writeBytes hlength hsplit
    · cases h

theorem takesOnly_readText :
    TakesOnly readText writeText fun s => (Text.Utf8.encode s).length < Bytes.capacity 8 := by
  intro bs v rest h
  unfold readText at h
  split at h
  · cases h
  · rename_i n tail hlength
    split at h
    · cases h
    · rename_i front rest' hsplit
      split at h
      · rename_i s hdecode
        cases h
        have hfront : front = Text.Utf8.encode v := Text.Utf8.eq_encode_of_decode hdecode
        subst hfront
        exact eq_writeBytes hlength hsplit
      · cases h

theorem TakesOnly.option (h : TakesOnly read write fits) :
    TakesOnly (readOption read) (writeOption write) fun v => ∀ x ∈ v, fits x := by
  intro bs v rest hread
  unfold readOption at hread
  split at hread
  · cases hread
  · split at hread
    · rename_i hzero
      cases hread
      exact ⟨by simp, by rw [hzero]; rfl⟩
    · split at hread
      · rename_i hone
        split at hread
        · rename_i x rest' hx
          cases hread
          obtain ⟨hfits, htail⟩ := h _ _ _ hx
          refine ⟨fun y hy => ?_, by rw [hone, htail]; rfl⟩
          cases hy
          exact hfits
        · cases hread
      · cases hread

end Field

namespace Message

open ReverseTunnel.Wire.Field

/-- What is read as the fields of a message of a kind are fields of a message of that kind, as
they are written. -/
theorem takesOnly_readFields (k : Kind) :
    TakesOnly (readFields k) fields fun m => m.LengthsFit ∧ m.kind = k := by
  intro bs m rest h
  have hnone : ∀ n ∈ ([] : List Nat), n < Bytes.capacity 8 := by simp
  have hone : ∀ {n : Nat}, n < Bytes.capacity 8 → ∀ k ∈ [n], k < Bytes.capacity 8 := by
    intro n hn k hk
    rwa [List.mem_singleton.mp hk]
  -- field by field, as the kind has them
  cases k with
  | auth =>
    obtain ⟨token, rest1, hfits, rfl, h1⟩ := takesOnly_readText.bind h
    cases h1
    exact ⟨⟨hone hfits, rfl⟩, rfl⟩
  | authAck =>
    obtain ⟨success, rest1, -, rfl, h1⟩ := takesOnly_readBool.bind h
    obtain ⟨message, rest2, hfits, rfl, h2⟩ := takesOnly_readText.bind h1
    cases h2
    exact ⟨⟨hone hfits, rfl⟩, by rw [fields, List.append_assoc]⟩
  | heartbeat =>
    obtain ⟨timestamp, rest1, -, rfl, h1⟩ := takesOnly_readU64.bind h
    cases h1
    exact ⟨⟨hnone, rfl⟩, rfl⟩
  | heartbeatAck =>
    obtain ⟨timestamp, rest1, -, rfl, h1⟩ := takesOnly_readU64.bind h
    obtain ⟨serverTime, rest2, -, rfl, h2⟩ := takesOnly_readU64.bind h1
    cases h2
    exact ⟨⟨hnone, rfl⟩, by rw [fields, List.append_assoc]⟩
  | openDataPort =>
    obtain ⟨encrypted, rest1, hfits, rfl, h1⟩ := takesOnly_readBytes.bind h
    cases h1
    exact ⟨⟨hone hfits, rfl⟩, rfl⟩
  | openDataPortAck =>
    obtain ⟨success, rest1, -, rfl, h1⟩ := takesOnly_readBool.bind h
    obtain ⟨message, rest2, hfits, rfl, h2⟩ := takesOnly_readText.bind h1
    obtain ⟨heartbeatDelay, rest3, -, rfl, h3⟩ := takesOnly_readU64.bind h2
    obtain ⟨port, rest4, -, rfl, h4⟩ := takesOnly_readU16.bind h3
    cases h4
    exact ⟨⟨hone hfits, rfl⟩, by simp only [fields, List.append_assoc]⟩
  | openDataConn =>
    obtain ⟨session, rest1, -, rfl, h1⟩ := takesOnly_readU32.bind h
    cases h1
    exact ⟨⟨hnone, rfl⟩, rfl⟩
  | openDataConnAck =>
    obtain ⟨session, rest1, -, rfl, h1⟩ := takesOnly_readU32.bind h
    obtain ⟨success, rest2, -, rfl, h2⟩ := takesOnly_readBool.bind h1
    cases h2
    exact ⟨⟨hnone, rfl⟩, by rw [fields, List.append_assoc]⟩

end Message

namespace Request

open ReverseTunnel.Wire.Field

theorem takesOnly_readFields : TakesOnly readFields fields LengthsFit := by
  intro bs q rest h
  obtain ⟨secret, rest1, hsecret, rfl, h1⟩ := takesOnly_readText.bind h
  obtain ⟨name, rest2, hname, rfl, h2⟩ := takesOnly_readText.bind h1
  obtain ⟨host, rest3, hhost, rfl, h3⟩ := takesOnly_readText.option.bind h2
  obtain ⟨port, rest4, -, rfl, h4⟩ := takesOnly_readU16.bind h3
  cases h4
  refine ⟨?_, by simp only [fields, List.append_assoc]⟩
  intro n hn
  obtain ⟨text, htext, rfl⟩ := List.mem_map.mp hn
  rcases List.mem_cons.mp htext with rfl | htext
  · exact hsecret
  · rcases List.mem_cons.mp htext with rfl | htext
    · exact hname
    · exact hhost text (Option.mem_toList.mp htext)

end Request

namespace Payload

open ReverseTunnel.Wire.Field

variable {b : Bytes} {read : Reader α} {write : α → Bytes} {fits : α → Prop} {v : α}

/-- If a reader takes back what was written and nothing else, then a payload is read as a value
exactly if it begins with that value's own. -/
theorem decode_eq_ok_iff (honly : TakesOnly read write fits)
    (hback : ∀ v, fits v → TakesBack read (write v) v) :
    decode read b = .ok v ↔ fits v ∧ encode (write v) <+: b := by
  constructor
  · intro h
    unfold decode at h
    split at h
    · cases h
    · rename_i version tail
      split at h
      · cases h
      · rename_i hversion
        split at h
        · rename_i value rest hread
          cases h
          obtain ⟨hfits, rfl⟩ := honly _ _ _ hread
          exact ⟨hfits, rest, by rw [Decidable.not_not.mp hversion]; rfl⟩
        · cases h
  · rintro ⟨hfits, rest, rfl⟩
    have hread := hback v hfits rest
    simp only [encode, List.cons_append, decode, hread, ne_eq, not_true_eq_false, if_false]

theorem decode_eq_empty_iff : decode read b = .error .empty ↔ b = [] := by
  unfold decode
  split
  · exact iff_of_true rfl rfl
  · refine iff_of_false ?_ (List.cons_ne_nil _ _)
    split
    · simp
    · split <;> simp

/-- The version is looked at before anything that follows it. -/
theorem decode_eq_version_iff {found : UInt8} :
    decode read b = .error (.version found) ↔ found ≠ payloadVersion ∧ ∃ rest, b = found :: rest := by
  unfold decode
  split
  · exact iff_of_false (by simp) (by simp)
  · rename_i version rest
    split
    · rename_i hversion
      constructor
      · intro h
        cases h
        exact ⟨hversion, rest, rfl⟩
      · rintro ⟨-, rest', h⟩
        cases h
        rfl
    · rename_i hversion
      refine iff_of_false ?_ ?_
      · split <;> simp
      · rintro ⟨hfound, rest', h⟩
        cases h
        exact hversion hfound

end Payload

/-- A byte string is read as a message of a kind exactly if the message is of that kind and the
byte string begins with the message's body, whatever follows; and as a request exactly if it
begins with the request's payload. It is refused for want of a version exactly if it is empty,
and for its version exactly if its first byte is not the version there is, whatever the kind and
whatever follows. -/
theorem payloads_are_canonical :
    (∀ k b m, Message.ofBody k b = .ok m ↔ (m.LengthsFit ∧ m.kind = k) ∧ m.body <+: b) ∧
    (∀ b q, Request.ofPayload b = .ok q ↔ q.LengthsFit ∧ q.payload <+: b) ∧
    (∀ k b, (Message.ofBody k b = .error .empty ↔ b = []) ∧
      ∀ found, Message.ofBody k b = .error (.version found) ↔
        found ≠ payloadVersion ∧ ∃ rest, b = found :: rest) ∧
    (∀ b, (Request.ofPayload b = .error .empty ↔ b = []) ∧
      ∀ found, Request.ofPayload b = .error (.version found) ↔
        found ≠ payloadVersion ∧ ∃ rest, b = found :: rest) := by
  refine ⟨fun k b m => ?_, fun b q => ?_, fun k b => ⟨Payload.decode_eq_empty_iff, fun _ =>
    Payload.decode_eq_version_iff⟩, fun b => ⟨Payload.decode_eq_empty_iff, fun _ =>
    Payload.decode_eq_version_iff⟩⟩
  · exact Payload.decode_eq_ok_iff (Message.takesOnly_readFields k) fun m ⟨hfits, hkind⟩ =>
      hkind ▸ Message.readFields_fields hfits
  · exact Payload.decode_eq_ok_iff Request.takesOnly_readFields fun _ => Request.readFields_fields

/-- What follows the fields is not looked at. -/
example : Message.ofBody .openDataConnAck [1, 7, 0, 0, 0, 1, 9] = .ok (.openDataConnAck 7 true) := rfl

/-- A truth value has two forms only. -/
example : Message.ofBody .openDataConnAck [1, 7, 0, 0, 0, 2] = .error (.field (.badBool 2)) := rfl

end ReverseTunnel.Wire

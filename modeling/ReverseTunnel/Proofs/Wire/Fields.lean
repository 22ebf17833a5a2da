import ReverseTunnel.Wire.Payload

/-!
Fields and messages are read back as they were written.

Each reader takes from the front of a byte string the field that its writer put there,
whatever follows (`TakesBack`). A length has eight bytes, so this holds of every text and
byte string that is shorter than numbers of eight bytes reach (`LengthsFit`), as all are that
a machine of sixty-four bits can hold; and so it does of every message
(`Message.readFields_fields`, `Message.ofBody_body`) and of every request
(`Request.ofPayload_payload`).
-/

namespace ReverseTunnel.Wire

namespace Field

variable {α : Type}

/-- A reader takes a value from the front of its written form, whatever follows. -/
def TakesBack (read : Reader α) (written : Bytes) (v : α) : Prop :=
  ∀ rest, read (written ++ rest) = .ok (v, rest)

theorem takesBack_readNat {width n : Nat} (h : n < Bytes.capacity width) :
    TakesBack (readNat width) (Bytes.le width n) n := by
  intro rest
  have hsplit := Bytes.split?_append (Bytes.le width n) rest
  rw [Bytes.length_le] at hsplit
  simp only [readNat, hsplit, Bytes.ofLE_le width n h]

theorem takesBack_readU16 (n : UInt16) : TakesBack readU16 (writeU16 n) n := by
  intro rest
  have hread : readNat 2 (Bytes.le 2 n.toNat ++ rest) = .ok (n.toNat, rest) :=
    takesBack_readNat n.toNat_lt rest
  simp only [readU16, writeU16, hread, UInt16.ofNat_toNat]

theorem takesBack_readU32 (n : UInt32) : TakesBack readU32 (writeU32 n) n := by
  intro rest
  have hread : readNat 4 (Bytes.le 4 n.toNat ++ rest) = .ok (n.toNat, rest) :=
    takesBack_readNat n.toNat_lt rest
  simp only [readU32, writeU32, hread, UInt32.ofNat_toNat]

theorem takesBack_readU64 (n : UInt64) : TakesBack readU64 (writeU64 n) n := by
  intro rest
  have hread : readNat 8 (Bytes.le 8 n.toNat ++ rest) = .ok (n.toNat, rest) :=
    takesBack_readNat n.toNat_lt rest
  simp only [readU64, writeU64, hread, UInt64.ofNat_toNat]

theorem takesBack_readBool (b : Bool) : TakesBack readBool (writeBool b) b := by
  intro rest
  cases b <;> rfl

theorem split?_writeBytes {bs : Bytes} (h : bs.length < Bytes.capacity 8) (rest : Bytes) :
    readNat 8 (writeBytes bs ++ rest) = .ok (bs.length, bs ++ rest) ∧
      Bytes.split? bs.length (bs ++ rest) = some (bs, rest) := by
  refine ⟨?_, Bytes.split?_append bs rest⟩
  rw [writeBytes, List.append_assoc]
  exact takesBack_readNat h (bs ++ rest)

theorem takesBack_readBytes {bs : Bytes} (h : bs.length < Bytes.capacity 8) :
    TakesBack readBytes (writeBytes bs) bs := by
  intro rest
  obtain ⟨hlength, hsplit⟩ := split?_writeBytes h rest
  simp only [readBytes, hlength, hsplit]

theorem takesBack_readText {s : String} (h : (Text.Utf8.encode s).length < Bytes.capacity 8) :
    TakesBack readText (writeText s) s := by
  intro rest
  obtain ⟨hlength, hsplit⟩ := split?_writeBytes h rest
  simp only [readText, writeText, hlength, hsplit, Text.Utf8.decode_encode]

theorem length_writeBytes (bs : Bytes) : (writeBytes bs).length = 8 + bs.length := by
  rw [writeBytes, List.length_append, Bytes.length_le]

end Field

namespace Message

open ReverseTunnel.Wire.Field

/-- The lengths that are written into a message. -/
def lengths : Message → List Nat
  | .auth token => [(Text.Utf8.encode token).length]
  | .authAck _ message => [(Text.Utf8.encode message).length]
  | .openDataPort encrypted => [encrypted.length]
  | .openDataPortAck _ message _ _ => [(Text.Utf8.encode message).length]
  | .heartbeat _ | .heartbeatAck _ _ | .openDataConn _ | .openDataConnAck _ _ => []

/-- Every text and byte string of a message has a length that eight bytes hold. -/
def LengthsFit (m : Message) : Prop := ∀ n ∈ m.lengths, n < Bytes.capacity 8

theorem lengthsFit_of_fields {m : Message} (h : m.fields.length < Bytes.capacity 8) :
    m.LengthsFit := by
  intro n hn
  cases m with
  | auth _ | authAck _ _ | openDataPort _ | openDataPortAck _ _ _ _ =>
    rw [List.mem_singleton.mp hn]
    simp only [fields, writeText, length_writeBytes, List.length_append] at h
    omega
  | heartbeat _ | heartbeatAck _ _ | openDataConn _ | openDataConnAck _ _ => cases hn

/-- The fields of a message are read back, whatever follows them. -/
theorem readFields_fields {m : Message} (h : m.LengthsFit) :
    TakesBack (readFields m.kind) m.fields m := by
  intro rest
  cases m with
  | auth token =>
    have htoken := takesBack_readText (h _ List.mem_cons_self)
    simp only [kind, fields, readFields, htoken _, bind, Except.bind, pure, Except.pure]
  | authAck success message =>
    have hmessage := takesBack_readText (h _ List.mem_cons_self)
    simp only [kind, fields, readFields, List.append_assoc, takesBack_readBool _ _, hmessage _, bind,
      Except.bind, pure, Except.pure]
  | heartbeat timestamp =>
    simp only [kind, fields, readFields, takesBack_readU64 _ _, bind, Except.bind, pure, Except.pure]
  | heartbeatAck timestamp serverTime =>
    simp only [kind, fields, readFields, List.append_assoc, takesBack_readU64 _ _, bind, Except.bind,
      pure, Except.pure]
  | openDataPort encrypted =>
    have hencrypted := takesBack_readBytes (h _ List.mem_cons_self)
    simp only [kind, fields, readFields, hencrypted _, bind, Except.bind, pure, Except.pure]
  | openDataPortAck success message heartbeatDelay port =>
    have hmessage := takesBack_readText (h _ List.mem_cons_self)
    simp only [kind, fields, readFields, List.append_assoc, takesBack_readBool _ _, hmessage _,
      takesBack_readU64 _ _, takesBack_readU16 _ _, bind, Except.bind, pure, Except.pure]
  | openDataConn session =>
    simp only [kind, fields, readFields, takesBack_readU32 _ _, bind, Except.bind, pure, Except.pure]
  | openDataConnAck session success =>
    simp only [kind, fields, readFields, List.append_assoc, takesBack_readU32 _ _,
      takesBack_readBool _ _, bind, Except.bind, pure, Except.pure]

theorem ofBody_body {m : Message} (h : m.fields.length < Bytes.capacity 8) :
    ofBody m.kind m.body = .ok m := by
  have hread := readFields_fields (lengthsFit_of_fields h) []
  rw [List.append_nil] at hread
  simp only [ofBody, body, Payload.encode, Payload.decode, hread, ne_eq, not_true_eq_false,
    if_false]

end Message

namespace Request

open ReverseTunnel.Wire.Field

/-- The lengths that are written into a request. -/
def lengths (q : Request) : List Nat :=
  (q.secret :: q.name :: q.host.toList).map fun text => (Text.Utf8.encode text).length

/-- Every text of a request has a length that eight bytes hold. -/
def LengthsFit (q : Request) : Prop := ∀ n ∈ q.lengths, n < Bytes.capacity 8

theorem lengthsFit_of_fields {q : Request} (h : q.fields.length < Bytes.capacity 8) :
    q.LengthsFit := by
  obtain ⟨secret, name, host, port⟩ := q
  cases host with
  | none | some _ =>
    simp only [fields, writeText, writeOption, length_writeBytes, List.length_append,
      List.length_cons] at h
    simp only [LengthsFit, lengths, Option.toList, List.map_cons, List.map_nil,
      List.forall_mem_cons, List.not_mem_nil, false_implies, implies_true, and_true]
    omega

theorem readFields_fields {q : Request} (h : q.LengthsFit) : TakesBack readFields q.fields q := by
  intro rest
  obtain ⟨secret, name, host, port⟩ := q
  have hsecret := takesBack_readText (h _ List.mem_cons_self)
  have hname := takesBack_readText (h _ (List.mem_cons_of_mem _ List.mem_cons_self))
  have hhost : TakesBack (readOption readText) (writeOption writeText host) host := by
    intro rest
    cases host with
    | none => rfl
    | some text =>
      have htext := takesBack_readText
        (h _ (List.mem_cons_of_mem _ (List.mem_cons_of_mem _ List.mem_cons_self)))
      simp [writeOption, readOption, htext rest]
  simp only [fields, readFields, List.append_assoc, hsecret _, hname _, hhost _,
    takesBack_readU16 _ _, bind, Except.bind, pure, Except.pure]

theorem ofPayload_payload {q : Request} (h : q.fields.length < Bytes.capacity 8) :
    ofPayload q.payload = .ok q := by
  have hread := readFields_fields (lengthsFit_of_fields h) []
  rw [List.append_nil] at hread
  simp only [ofPayload, payload, Payload.encode, Payload.decode, hread, ne_eq, not_true_eq_false,
    if_false]

end Request

end ReverseTunnel.Wire

import ReverseTunnel.Proofs.Wire.Payloads
import ReverseTunnel.Seal.Envelope

/-!
A sealed request is opened to the request that it was sealed from.

What is proved (`sealed_forms_open`):
1. Sealing and opening are inverse, and how long a sealed form is depends on how long the
   plaintext is, and on nothing else.
2. Of all byte strings it is said which are too short to be opened. Opening fails in no other way
   than that the cipher refuses, and what is opened is a request as far as the plaintext is one.

What is assumed: for the first, that the cipher opens what it encrypted and puts a tag of sixteen
bytes behind it. The one in use does (`aes256Gcm_opens`, `aes256Gcm_addsTag`). The second holds
whatever the cipher does.

What is not said: that nobody else can make a sealed form that opens. This is a property of the
cipher and not of the envelope.
-/

namespace ReverseTunnel.Seal

variable {a : Aead} {nonce plain : Bytes} {q : Wire.Request}

theorem length_sealBytes (htag : a.AddsTag) (key : String) (nonce plain : Bytes) :
    (sealBytes a key nonce plain).length = nonce.length + plain.length + 16 := by
  rw [sealBytes, List.length_append, htag]
  omega

theorem length_sealRequest (htag : a.AddsTag) (key : String) (nonce : Bytes) (q : Wire.Request) :
    (sealRequest a key nonce q).length = nonce.length + q.fields.length + 17 := by
  rw [sealRequest, length_sealBytes htag, Wire.Request.payload, Wire.Payload.encode,
    List.length_cons]
  omega

theorem openBytes_sealBytes (hopens : a.Opens) (htag : a.AddsTag) (key : String)
    (hnonce : nonce.length = nonceLength) (plain : Bytes) :
    openBytes a key (sealBytes a key nonce plain) = .ok plain := by
  have hlong : ¬(sealBytes a key nonce plain).length ≤ nonceLength := by
    rw [length_sealBytes htag]
    omega
  rw [openBytes, if_neg hlong, sealBytes, ← hnonce, List.take_left, List.drop_left, hopens]

theorem openRequest_of_openBytes {key : String} {sealed : Bytes}
    (h : openBytes a key sealed = .ok plain) :
    openRequest a key sealed = (Wire.Request.ofPayload plain).mapError .payload := by
  simp only [openRequest, h]
  cases Wire.Request.ofPayload plain <;> rfl

theorem openRequest_sealRequest (hopens : a.Opens) (htag : a.AddsTag) (key : String)
    (hnonce : nonce.length = nonceLength) (h : q.fields.length < Bytes.capacity 8) :
    openRequest a key (sealRequest a key nonce q) = .ok q := by
  have hplain : openBytes a key (sealRequest a key nonce q) = .ok q.payload :=
    openBytes_sealBytes hopens htag key hnonce q.payload
  rw [openRequest_of_openBytes hplain, Wire.Request.ofPayload_payload h]
  rfl

/-- Of all requests those are opened again whose lengths can be written down. -/
theorem openRequest_sealRequest_iff (hopens : a.Opens) (htag : a.AddsTag) (key : String)
    (hnonce : nonce.length = nonceLength) (q : Wire.Request) :
    openRequest a key (sealRequest a key nonce q) = .ok q ↔ q.LengthsFit := by
  have hplain : openBytes a key (sealRequest a key nonce q) = .ok q.payload :=
    openBytes_sealBytes hopens htag key hnonce q.payload
  have hread : Wire.Request.ofPayload q.payload = .ok q ↔ q.LengthsFit ∧ q.payload <+: q.payload :=
    Wire.Payload.decode_eq_ok_iff Wire.Request.takesOnly_readFields
      fun _ => Wire.Request.readFields_fields
  have hpayload : Wire.Request.ofPayload q.payload = .ok q ↔ q.LengthsFit := by
    simpa using hread
  rw [openRequest_of_openBytes hplain, ← hpayload]
  cases Wire.Request.ofPayload q.payload with
  | error e => exact ⟨nofun, nofun⟩
  | ok r =>
    constructor
    · intro h
      cases h
      rfl
    · intro h
      cases h
      rfl

/-! ## Why a sealed form is not opened -/

/-- What is wrong with a sealed form. -/
def Fails (a : Aead) (key : String) (sealed : Bytes) : SealError → Prop
  | .truncated => sealed.length ≤ nonceLength
  | .refused => nonceLength < sealed.length ∧
      a.decrypt? (cipherKey key) (sealed.take nonceLength) (sealed.drop nonceLength) = none
  | .payload error => nonceLength < sealed.length ∧ ∃ plain,
      a.decrypt? (cipherKey key) (sealed.take nonceLength) (sealed.drop nonceLength) = some plain ∧
        Wire.Request.ofPayload plain = .error error

variable {key : String} {sealed : Bytes}

theorem fails_of_openRequest {e : SealError} (h : openRequest a key sealed = .error e) :
    Fails a key sealed e := by
  unfold openRequest openBytes at h
  by_cases hshort : sealed.length ≤ nonceLength
  · rw [if_pos hshort] at h
    cases h
    exact hshort
  · rw [if_neg hshort] at h
    have hlong : nonceLength < sealed.length := Nat.lt_of_not_le hshort
    cases hplain : a.decrypt? (cipherKey key) (sealed.take nonceLength) (sealed.drop nonceLength) with
    | none =>
      rw [hplain] at h
      cases h
      exact ⟨hlong, hplain⟩
    | some plain =>
      rw [hplain] at h
      dsimp only at h
      cases hq : Wire.Request.ofPayload plain with
      | ok q =>
        rw [hq] at h
        cases h
      | error e =>
        rw [hq] at h
        cases h
        exact ⟨hlong, plain, hplain, hq⟩

theorem openRequest_of_fails {e : SealError} (h : Fails a key sealed e) :
    openRequest a key sealed = .error e := by
  unfold openRequest openBytes
  cases e with
  | truncated => rw [if_pos (show sealed.length ≤ nonceLength from h)]
  | refused =>
    obtain ⟨hlong, hplain⟩ := h
    rw [if_neg (Nat.not_le_of_lt hlong), hplain]
  | payload error =>
    obtain ⟨hlong, plain, hplain, hq⟩ := h
    rw [if_neg (Nat.not_le_of_lt hlong), hplain]
    dsimp only
    rw [hq]

theorem openBytes_eq_truncated_iff :
    openBytes a key sealed = .error .truncated ↔ sealed.length ≤ nonceLength := by
  unfold openBytes
  constructor
  · intro h
    apply Decidable.byContradiction
    intro hlong
    rw [if_neg hlong] at h
    split at h <;> cases h
  · intro hshort
    rw [if_pos hshort]

theorem openBytes_eq_error {e : SealError} (h : openBytes a key sealed = .error e) :
    e = .truncated ∨ e = .refused := by
  unfold openBytes at h
  split at h
  · cases h
    exact .inl rfl
  · split at h <;> cases h
    exact .inr rfl

/-- Before a payload is read, a request is refused for what its bytes are refused for. -/
theorem openRequest_eq_error_iff {e : SealError} (he : e = .truncated ∨ e = .refused) :
    openRequest a key sealed = .error e ↔ openBytes a key sealed = .error e := by
  cases hplain : openBytes a key sealed with
  | error e' => simp only [openRequest, hplain, Except.error.injEq]
  | ok plain =>
    rw [openRequest_of_openBytes hplain]
    refine iff_of_false ?_ nofun
    cases Wire.Request.ofPayload plain with
    | ok r => nofun
    | error error =>
      intro h
      cases h
      obtain h | h := he <;> cases h

/-- Under whatever key and nonce, what was sealed is opened again, and is longer than before by
the nonce and the tag: every plaintext, and every request whose texts have lengths that eight
bytes hold, as all have that are ever in memory. The cipher in use is one of those of which this
holds. And whatever a cipher does, a byte string is too short exactly if nothing follows the nonce,
and a request is refused for what its bytes are refused for or for what is wrong with its
payload. -/
theorem sealed_forms_open :
    (∀ a : Aead, a.Opens → a.AddsTag → ∀ (key : String) (nonce : Bytes), nonce.length = 12 →
      (∀ plain, openBytes a key (sealBytes a key nonce plain) = .ok plain ∧
        (sealBytes a key nonce plain).length = plain.length + 28) ∧
      ∀ q, openRequest a key (sealRequest a key nonce q) = .ok q ↔ q.LengthsFit) ∧
    (aes256Gcm.Opens ∧ aes256Gcm.AddsTag) ∧
    ∀ (a : Aead) (key : String) (sealed : Bytes),
      (openBytes a key sealed = .error .truncated ↔ sealed.length ≤ 12) ∧
      (∀ e, openBytes a key sealed = .error e → e = .truncated ∨ e = .refused) ∧
      (∀ e, e = .truncated ∨ e = .refused →
        (openRequest a key sealed = .error e ↔ openBytes a key sealed = .error e)) ∧
      ∀ plain, openBytes a key sealed = .ok plain →
        openRequest a key sealed = (Wire.Request.ofPayload plain).mapError .payload := by
  refine ⟨fun a hopens htag key nonce hnonce => ⟨fun plain => ⟨?_, ?_⟩, ?_⟩,
    ⟨aes256Gcm_opens, aes256Gcm_addsTag⟩, fun a key sealed => ⟨openBytes_eq_truncated_iff,
      fun _ => openBytes_eq_error, fun _ => openRequest_eq_error_iff,
      fun _ => openRequest_of_openBytes⟩⟩
  · exact openBytes_sealBytes hopens htag key hnonce plain
  · rw [length_sealBytes htag, hnonce]
    omega
  · exact openRequest_sealRequest_iff hopens htag key hnonce

/-- The empty plaintext and a request without a host under the cipher in use, and a byte string
that ends with its nonce. -/
theorem sealed_forms_open_emptyPlaintext :
    let nonce : Bytes := List.replicate 12 7
    let q : Wire.Request := { secret := "s3cret", name := "web", host := none, port := 9000 }
    openBytes aes256Gcm "psk" (sealBytes aes256Gcm "psk" nonce []) = .ok [] ∧
      (sealBytes aes256Gcm "psk" nonce []).length = 28 ∧
      openRequest aes256Gcm "psk" (sealRequest aes256Gcm "psk" nonce q) = .ok q ∧
      openRequest aes256Gcm "psk" nonce = .error .truncated := by
  intro nonce q
  obtain ⟨hopens, ⟨haes, htag⟩, hfails⟩ := sealed_forms_open
  obtain ⟨hplain, hrequest⟩ := hopens aes256Gcm haes htag "psk" nonce rfl
  obtain ⟨htruncated, -, hsame, -⟩ := hfails aes256Gcm "psk" nonce
  refine ⟨(hplain []).1, (hplain []).2, (hrequest q).mpr ?_,
    (hsame .truncated (.inl rfl)).mpr (htruncated.mpr (Nat.le_refl 12))⟩
  apply Wire.Request.lengthsFit_of_fields
  decide

end ReverseTunnel.Seal

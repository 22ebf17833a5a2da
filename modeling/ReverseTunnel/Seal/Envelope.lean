import ReverseTunnel.Seal.Gcm
import ReverseTunnel.Seal.Sha256
import ReverseTunnel.Wire.Payload

/-!
Sealed provisioning requests.

The cipher's key is the hash of a key text. A sealed form is a nonce of twelve
bytes and what the cipher makes of the plaintext, which for a request is its
payload.
-/

namespace ReverseTunnel.Seal

def nonceLength : Nat := 12

/-- Why a sealed form cannot be opened. -/
inductive SealError where
  /-- Nothing follows the nonce, or not even the nonce is complete. -/
  | truncated
  /-- The cipher does not accept it under this key. -/
  | refused
  /-- It opens, but not to a request. -/
  | payload (error : Wire.PayloadError)
  deriving DecidableEq, Repr

def SealError.message : SealError → String
  | .truncated => "ciphertext too short"
  | .refused => "decrypt failed"
  | .payload error => s!"request: {error.message}"

/-- The cipher's key for a key text. -/
def cipherKey (key : String) : Bytes := Sha256.hash (Text.Utf8.encode key)

/-- Seals a plaintext under a key text and a nonce. -/
def sealBytes (a : Aead) (key : String) (nonce plain : Bytes) : Bytes :=
  nonce ++ a.encrypt (cipherKey key) nonce plain

/-- Opens a sealed form under a key text. -/
def openBytes (a : Aead) (key : String) (sealed : Bytes) : Except SealError Bytes :=
  if sealed.length ≤ nonceLength then .error .truncated
  else
    match a.decrypt? (cipherKey key) (sealed.take nonceLength) (sealed.drop nonceLength) with
    | some plain => .ok plain
    | none => .error .refused

def sealRequest (a : Aead) (key : String) (nonce : Bytes) (r : Wire.Request) : Bytes :=
  sealBytes a key nonce r.payload

def openRequest (a : Aead) (key : String) (sealed : Bytes) : Except SealError Wire.Request :=
  match openBytes a key sealed with
  | .error e => .error e
  | .ok plain =>
    match Wire.Request.ofPayload plain with
    | .ok r => .ok r
    | .error e => .error (.payload e)

end ReverseTunnel.Seal

import ReverseTunnel.Address
import ReverseTunnel.Seal.Envelope
import ReverseTunnel.Server.Options
import ReverseTunnel.Server.Registry
import ReverseTunnel.Text.Quoted

/-!
Deciding on a request for a public port.

A request is refused for the first reason that applies, in the order of
`ProvisionError`; a refused request changes nothing. The address that is bound
follows the requested host only if the options allow that and it is not blank.
-/

namespace ReverseTunnel.Server

open Session (ConnId)

/-- Why a request is refused. -/
inductive ProvisionError where
  | unauthenticated
  | sealed (error : Seal.SealError)
  | wrongSecret
  | emptyName
  /-- The connection owns a proxy already. -/
  | alreadyProvisioned
  | nameTaken (name : String)
  /-- The address could not be bound. -/
  | bind (addr cause : String)
  deriving DecidableEq, Repr

def ProvisionError.message : ProvisionError → String
  | .unauthenticated => "not authenticated"
  | .sealed error => "decrypt: " ++ error.message
  | .wrongSecret => "secret mismatch"
  | .emptyName => "proxy name is empty"
  | .alreadyProvisioned => "connection already owns a data proxy"
  | .nameTaken name => "proxy name " ++ Text.Quoted.encode name ++ " is already in use"
  | .bind addr cause => "listen " ++ addr ++ ": " ++ cause

/-- The outcome of binding an address, for every address. -/
abbrev Binder := String → Except String Bound

/-- The host to listen on for a request. -/
def Options.bindHost (o : Options) (requested : Option String) : String :=
  match requested with
  | some host =>
    if o.allowHostOverride && !Text.isBlankText host then Text.trim host else o.defaultBindHost
  | none => o.defaultBindHost

/-- The address to listen on for a request. -/
def Options.bindAddr (o : Options) (r : Wire.Request) : String :=
  Address.join (o.bindHost r.host) r.port

/-- Decides on a sealed request, and says what is to be registered. -/
def provision (o : Options) (a : Seal.Aead) (bind : Binder) (now : Nat) (reg : Registry)
    (c : ConnId) (sealedRequest : Bytes) : Except ProvisionError Registration :=
  if !reg.isAuthenticated c then .error .unauthenticated
  else
    match Seal.openRequest a o.sealKey sealedRequest with
    | .error e => .error (.sealed e)
    | .ok r =>
      let name := Text.trim r.name
      -- the secret within, not the key that it was sealed under
      if r.secret ≠ o.secret then .error .wrongSecret
      else if name = "" then .error .emptyName
      else if reg.owns c then .error .alreadyProvisioned
      else if reg.isTaken name then .error (.nameTaken name)
      else
        -- the last thing that can go wrong, so that nothing bound is left over
        match bind (o.bindAddr r) with
        | .error cause => .error (.bind (o.bindAddr r) cause)
        | .ok bound => .ok { owner := c, name, bound, startedAt := now }

end ReverseTunnel.Server

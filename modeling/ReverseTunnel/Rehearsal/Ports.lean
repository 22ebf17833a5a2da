import ReverseTunnel.Data.Value
import ReverseTunnel.Server.Provision

/-!
The addresses of a rehearsal.

Ports are handed out from a fixed number on, and an address can be bound if it is this
machine's and its port is not listened on.
-/

namespace ReverseTunnel.Rehearsal

open ReverseTunnel.Server (Bound Binder)

def firstPort : Nat := 49152

/-- The number that decimal digits stand for. -/
def decimal? (text : String) : Option Nat := Data.natural? 10 text.toList

/-- Whether a host is an address of this machine that can always be bound. -/
def isLocal (host : String) : Bool :=
  let octets := (host.splitOn ".").map decimal?
  host = "0.0.0.0" || (octets.length = 4 && octets.head? = some (some 127) &&
    octets.all fun
      | some n => n < 256
      | none => false)

/-- Whether two listeners would get in each other's way. -/
def clash (a b : Bound) : Bool :=
  a.port = b.port && (a.host = b.host || a.host = "0.0.0.0" || b.host = "0.0.0.0")

/-- Binds an address beside those that are listened on; port 0 stands for the next one. -/
def bindBeside (listening : List Bound) (next : UInt16) : Binder := fun addr =>
  let port := (addr.toList.reverse.takeWhile (· ≠ ':')).reverse
  let host := String.ofList (addr.toList.take (addr.length - port.length - 1))
  match (decimal? (String.ofList port)).filter (· < 65536) with
  | none => .error "invalid port value"
  | some asked =>
    if !isLocal host then .error "Cannot assign requested address (os error 99)"
    else
      let bound : Bound := ⟨host, if asked = 0 then next else UInt16.ofNat asked⟩
      if listening.any (clash bound) then .error "Address already in use (os error 98)"
      else .ok bound

end ReverseTunnel.Rehearsal

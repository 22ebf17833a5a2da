import ReverseTunnel.Wire.Field
import ReverseTunnel.Wire.Message

/-!
Payloads: the bodies of control messages, and sealed requests before sealing.

A payload is a version byte and then the fields one after another. Bytes after
the last field are ignored, and the version is looked at before anything else.
-/

namespace ReverseTunnel.Wire

/-- The only version of payloads there is. -/
def payloadVersion : UInt8 := 1

/-- Why a payload cannot be read. -/
inductive PayloadError where
  /-- Not even a version byte is there. -/
  | empty
  /-- The version is not ours. -/
  | version (found : UInt8)
  /-- A field is malformed. -/
  | field (error : FieldError)
  deriving DecidableEq, Repr

def PayloadError.message : PayloadError → String
  | .empty => "empty payload"
  | .version found => s!"unsupported payload version: {found.toNat}"
  | .field error => s!"payload: {error.message}"

namespace Message

open Wire.Field

def fields : Message → Bytes
  | .auth token => writeText token
  | .authAck success message => writeBool success ++ writeText message
  | .heartbeat timestamp => writeU64 timestamp
  | .heartbeatAck timestamp serverTime => writeU64 timestamp ++ writeU64 serverTime
  | .openDataPort encrypted => writeBytes encrypted
  | .openDataPortAck success message heartbeatDelay port =>
    writeBool success ++ writeText message ++ writeU64 heartbeatDelay ++ writeU16 port
  | .openDataConn session => writeU32 session
  | .openDataConnAck session success => writeU32 session ++ writeBool success

def readFields : Kind → Reader Message
  | .auth, bs => do
    let (token, bs) ← readText bs
    pure (.auth token, bs)
  | .authAck, bs => do
    let (success, bs) ← readBool bs
    let (message, bs) ← readText bs
    pure (.authAck success message, bs)
  | .heartbeat, bs => do
    let (timestamp, bs) ← readU64 bs
    pure (.heartbeat timestamp, bs)
  | .heartbeatAck, bs => do
    let (timestamp, bs) ← readU64 bs
    let (serverTime, bs) ← readU64 bs
    pure (.heartbeatAck timestamp serverTime, bs)
  | .openDataPort, bs => do
    let (encrypted, bs) ← readBytes bs
    pure (.openDataPort encrypted, bs)
  | .openDataPortAck, bs => do
    let (success, bs) ← readBool bs
    let (message, bs) ← readText bs
    let (heartbeatDelay, bs) ← readU64 bs
    let (port, bs) ← readU16 bs
    pure (.openDataPortAck success message heartbeatDelay port, bs)
  | .openDataConn, bs => do
    let (session, bs) ← readU32 bs
    pure (.openDataConn session, bs)
  | .openDataConnAck, bs => do
    let (session, bs) ← readU32 bs
    let (success, bs) ← readBool bs
    pure (.openDataConnAck session success, bs)

end Message

namespace Request

open Wire.Field

def fields (r : Request) : Bytes :=
  writeText r.secret ++ writeText r.name ++ writeOption writeText r.host ++ writeU16 r.port

def readFields : Reader Request := fun bs => do
  let (secret, bs) ← readText bs
  let (name, bs) ← readText bs
  let (host, bs) ← readOption readText bs
  let (port, bs) ← readU16 bs
  pure ({ secret, name, host, port }, bs)

end Request

namespace Payload

/-- The fields behind their version byte. -/
def encode (fields : Bytes) : Bytes := payloadVersion :: fields

/-- Reads a payload: its version, then its fields, and nothing more. -/
def decode {α : Type} (read : Reader α) : Bytes → Except PayloadError α
  | [] => .error .empty
  | version :: rest =>
    if version ≠ payloadVersion then .error (.version version)
    else
      match read rest with
      | .ok (value, _) => .ok value
      | .error e => .error (.field e)

end Payload

/-- The body of a message's frame. -/
def Message.body (m : Message) : Bytes := Payload.encode m.fields

/-- The message of the given kind that a frame's body carries. -/
def Message.ofBody (k : Kind) (body : Bytes) : Except PayloadError Message :=
  Payload.decode (Message.readFields k) body

/-- A request as it is sealed. -/
def Request.payload (r : Request) : Bytes := Payload.encode r.fields

/-- The request that an opened payload carries. -/
def Request.ofPayload (bs : Bytes) : Except PayloadError Request :=
  Payload.decode Request.readFields bs

end ReverseTunnel.Wire

import ReverseTunnel.Config.File
import ReverseTunnel.Data.Value

/-!
Reading a configuration file out of a document.

A section is a table, or a list of its fields' values in order; a bare scalar without
characters is an empty table. `File.ofValue?`
fails on a value of the wrong type, a number out of range, a field that is missing
without a default, a field given twice, an empty value where none is allowed, and
on an unknown name at the top; unknown names further down are passed over.
-/

namespace ReverseTunnel.Config

open Data (Value)

/-- The values that a table gives for a name. -/
def valuesOf (name : String) : List (Value × Value) → List Value
  | [] => []
  | (k, v) :: rest =>
    if k.text? == some name then v :: valuesOf name rest else valuesOf name rest

/-- The one value that a table gives for a name, if it gives any; none at all if it
gives several. -/
def single? (entries : List (Value × Value)) (name : String) : Option (Option Value) :=
  match valuesOf name entries with
  | [] => some none
  | [v] => some (some v)
  | _ => none

/-- The names of a section's fields, how many of them a list has to give at least,
and whether other names are refused. -/
structure Layout where
  names : List String
  needed : Nat
  closed : Bool := false

/-- Whether a table's keys are texts, and known ones where that is asked for. -/
def Layout.admits (l : Layout) (entries : List (Value × Value)) : Bool :=
  entries.all fun e =>
    match e.1.text? with
    | some name => !l.closed || l.names.contains name
    | none => false

/-- The values of a section's fields in the order of their names. -/
def Layout.values? (l : Layout) : Value → Option (List (Option Value))
  | .table entries => if l.admits entries then l.names.mapM (single? entries) else none
  | .list items isOpen =>
    if l.needed ≤ items.length ∧ (isOpen ∨ items.length ≤ l.names.length) then
      some ((items.take l.names.length).map some ++
        List.replicate (l.names.length - items.length) none)
    else none
  | .scalar (.plain _) "" => some (l.names.map fun _ => none)
  | _ => none

/-- A field that has to be there. -/
def required {α : Type} (read : Value → Option α) : Option Value → Option α
  | some v => read v
  | none => none

/-- A field with a value of its own when it is left out. -/
def defaulted {α : Type} (read : Value → Option α) (default : α) : Option Value → Option α
  | some v => read v
  | none => some default

/-- A field that may be left out or left empty. -/
def optional {α : Type} (read : Value → Option α) : Option Value → Option (Option α)
  | some v =>
    match v.isNull? with
    | some true => some none
    | some false => (read v).map some
    | none => none
  | none => some none

/-- A signed number of 64 bits. -/
def int64? (v : Value) : Option Int64 :=
  match v.int? with
  | some i => if -9223372036854775808 ≤ i ∧ i ≤ 9223372036854775807 then some (.ofInt i) else none
  | none => none

/-- A port number. -/
def port? (v : Value) : Option UInt16 :=
  match v.natural? with
  | some n => if n ≤ 65535 then some (.ofNat n) else none
  | none => none

def LoggingSection.ofValue? (v : Value) : Option LoggingSection := do
  match ← Layout.values? { names := ["level", "format", "output", "add_source"], needed := 3 } v with
  | [level, format, output, addSource] =>
    return {
      level := ← optional Value.text? level
      format := ← optional Value.text? format
      output := ← optional Value.text? output
      addSource := ← defaulted Value.bool? false addSource }
  | _ => none

def ServerSection.layout : Layout :=
  { names := ["listen_addr", "auth_token", "secret", "key", "judge_delay_ms",
      "heartbeat_delay_ms", "allow_host_override", "unbound_ttl_ms", "default_bind_host",
      "close_on_auth_failure"]
    needed := 9 }

def ServerSection.ofValue? (v : Value) : Option ServerSection := do
  match ← ServerSection.layout.values? v with
  | [listenAddr, authToken, secret, key, judgeDelay, heartbeatDelay, allowHostOverride,
      unboundTtl, defaultBindHost, closeOnAuthFailure] =>
    return {
      listenAddr := ← optional Value.text? listenAddr
      authToken := ← optional Value.text? authToken
      secret := ← defaulted Value.text? "" secret
      key := ← optional Value.text? key
      judgeDelay := ← optional int64? judgeDelay
      heartbeatDelay := ← optional int64? heartbeatDelay
      allowHostOverride := ← defaulted Value.bool? false allowHostOverride
      unboundTtl := ← optional int64? unboundTtl
      defaultBindHost := ← optional Value.text? defaultBindHost
      closeOnAuthFailure := ← defaulted Value.bool? false closeOnAuthFailure }
  | _ => none

def ProxySection.layout : Layout :=
  { names := ["name", "local_addr", "remote_port", "remote_host", "secret", "key", "data_host"]
    needed := 7 }

def ProxySection.ofValue? (v : Value) : Option ProxySection := do
  match ← ProxySection.layout.values? v with
  | [name, localAddr, remotePort, remoteHost, secret, key, dataHost] =>
    return {
      name := ← required Value.text? name
      localAddr := ← required Value.text? localAddr
      remotePort := ← defaulted port? 0 remotePort
      remoteHost := ← optional Value.text? remoteHost
      secret := ← defaulted Value.text? "" secret
      key := ← optional Value.text? key
      dataHost := ← optional Value.text? dataHost }
  | _ => none

def ClientSection.layout : Layout :=
  { names := ["server_addr", "auth_token", "min_reconnect_delay_ms", "max_reconnect_delay_ms",
      "heartbeat_delay_ms", "dial_timeout_ms", "proxy"]
    needed := 7 }

def ClientSection.ofValue? (v : Value) : Option ClientSection := do
  match ← ClientSection.layout.values? v with
  | [serverAddr, authToken, minReconnectDelay, maxReconnectDelay, heartbeatDelay, dialTimeout,
      proxy] =>
    return {
      serverAddr := ← required Value.text? serverAddr
      authToken := ← optional Value.text? authToken
      minReconnectDelay := ← optional int64? minReconnectDelay
      maxReconnectDelay := ← optional int64? maxReconnectDelay
      heartbeatDelay := ← optional int64? heartbeatDelay
      dialTimeout := ← optional int64? dialTimeout
      proxy := ← optional ProxySection.ofValue? proxy }
  | _ => none

def File.layout : Layout :=
  { names := ["admin_addr", "logging", "server", "client"], needed := 4, closed := true }

def File.ofValue? (v : Value) : Option File := do
  match ← File.layout.values? v with
  | [adminAddr, logging, server, client] =>
    return {
      adminAddr := ← defaulted Value.text? "" adminAddr
      logging := ← optional LoggingSection.ofValue? logging
      server := ← optional ServerSection.ofValue? server
      client := ← optional ClientSection.ofValue? client }
  | _ => none

end ReverseTunnel.Config

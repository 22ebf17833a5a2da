import ReverseTunnel.Client.Session
import ReverseTunnel.Server.Run
import ReverseTunnel.Text.Json

/-!
The pages of the admin interface: what each shows of a running program, and the text
that it shows it in.
-/

namespace ReverseTunnel.Admin

open Text

/-- What the admin interface can see of a running program. -/
structure View where
  configPath : String
  metrics : Metrics := {}
  /-- The registered proxies; none without a server. -/
  proxies : List Server.ProxySnapshot := []
  /-- How the client stands, if there is one. -/
  client : Option Client.State := none
  deriving DecidableEq, Repr

inductive Page where
  | health
  | metrics (ms : Metrics)
  | proxies (ps : List Server.ProxySnapshot)
  | client (state : Option Client.State)
  | config (path : String)
  deriving DecidableEq, Repr

def View.page? (v : View) : String → Option Page
  | "/health" => some .health
  | "/metrics" => some (.metrics v.metrics)
  | "/tunnel/proxies" => some (.proxies v.proxies)
  | "/tunnel/client" => some (.client v.client)
  | "/config" => some (.config v.configPath)
  | _ => none

/-- A metric and its reading in the exposition format. -/
def exposition (r : Metric × Int) : String :=
  let kind := match r.1 with
    | .controlConnectionsActive | .dataProxiesActive => "gauge"
    | _ => "counter"
  "# TYPE " ++ r.1.name ++ " " ++ kind ++ "\n" ++ r.1.name ++ " " ++ toString r.2 ++ "\n\n"

/-- A registered proxy as an object. -/
def proxyObject (p : Server.ProxySnapshot) : String :=
  let r := p.registration
  Json.object [
    ("name", Json.string r.name),
    ("bind_addr", Json.string (Address.join r.bound.host r.bound.port)),
    ("owner", Json.string r.owner.text),
    ("owner_peer", Json.optional p.ownerPeer),
    ("unbound", toString p.waiting),
    ("started_at_unix_ms", toString r.startedAt)]

namespace Page

def text : Page → String
  | health => Json.object [("ok", Json.bool true)]
  | metrics ms => String.join (ms.readings.map exposition)
  | proxies ps => Json.list (ps.map proxyObject)
  | client state =>
    Json.object [("enabled", Json.bool state.isSome),
      ("state", Json.optional (state.map Client.State.name))]
  | config path => Json.object [("path", Json.string path)]

def contentType : Page → String
  | metrics _ => "text/plain; version=0.0.4"
  | _ => "application/json"

end Page

end ReverseTunnel.Admin

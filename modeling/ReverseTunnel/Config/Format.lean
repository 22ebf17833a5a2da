import ReverseTunnel.Config.Shape
import ReverseTunnel.Data.Toml.Document
import ReverseTunnel.Data.Yaml.Document
import ReverseTunnel.Disk.Path
import ReverseTunnel.Text.Blank

/-!
The formats of configuration files, which their extensions tell apart, and the file
that is written in each where there is none.
-/

namespace ReverseTunnel.Config

inductive Format where
  | toml
  | yaml
  deriving DecidableEq, Repr

namespace Format

def name : Format → String
  | toml => "toml"
  | yaml => "yaml"

/-- The extension of a path in small letters; nothing if it has none. -/
def extensionOf (path : String) : String :=
  Text.lowerAscii ((Disk.Path.extension? path).getD "")

/-- The format of a file, by the extension of its path in whatever case. -/
def ofPath? (path : String) : Option Format :=
  match extensionOf path with
  | "toml" => some toml
  | "yaml" => some yaml
  | "yml" => some yaml
  | _ => none

/-- How deep a document is read: a file has sections, one of which has a part with
fields of its own. -/
def depth : Nat := 4

def parse? : Format → String → Option Data.Value
  | toml, text => Data.Toml.parse? text
  | yaml, text => Data.Yaml.parse? depth text

/-- The remarks that begin the file that is written where there is none; `mention` is
how the format mentions the section of the client. -/
def preamble (mention : String) : List String := [
  "# Tether configuration (auto-generated)",
  "#",
  "# This file was created because Tether could not find a configuration file at the",
  "# resolved config path.",
  "#",
  "# The default runs a tunnel server only. Clients authenticate with auth_token and",
  "# provision public ports with the shared secret. Add a " ++ mention ++ " section to run the",
  "# client side in this process as well.",
  ""]

/-- The lines of the file that is written where there is none. -/
def templateLines : Format → List String
  | toml => preamble "[client]" ++ [
    "admin_addr = \":8080\"",
    "",
    "[server]",
    "listen_addr = \":7000\"",
    "auth_token = \"\"",
    "secret = \"change-me\"",
    "judge_delay_ms = 300",
    "heartbeat_delay_ms = 10000",
    "allow_host_override = false",
    "",
    "[logging]",
    "level = \"info\"",
    "format = \"json\"",
    "output = \"stderr\"",
    "add_source = false",
    "",
    "# [client]",
    "# server_addr = \"tunnel.example.com:7000\"",
    "# auth_token = \"\"",
    "# min_reconnect_delay_ms = 1000",
    "# max_reconnect_delay_ms = 60000",
    "#",
    "# [client.proxy]",
    "# name = \"web\"",
    "# local_addr = \"127.0.0.1:8080\"",
    "# remote_port = 9000",
    "# secret = \"change-me\""]
  | yaml => preamble "client" ++ [
    "admin_addr: \":8080\"",
    "",
    "server:",
    "  listen_addr: \":7000\"",
    "  auth_token: \"\"",
    "  secret: \"change-me\"",
    "  judge_delay_ms: 300",
    "  heartbeat_delay_ms: 10000",
    "  allow_host_override: false",
    "",
    "logging:",
    "  level: \"info\"",
    "  format: \"json\"",
    "  output: \"stderr\"",
    "  add_source: false",
    "",
    "# client:",
    "#   server_addr: \"tunnel.example.com:7000\"",
    "#   proxy:",
    "#     name: \"web\"",
    "#     local_addr: \"127.0.0.1:8080\"",
    "#     remote_port: 9000",
    "#     secret: \"change-me\""]

/-- The characters of the file that is written where there is none: each line is ended. -/
def templateChars (f : Format) : List Char := f.templateLines.flatMap fun l => l.toList ++ ['\n']

/-- The file that is written where there is none. -/
def template (f : Format) : String := String.ofList f.templateChars

end Format

end ReverseTunnel.Config

import ReverseTunnel.Text.Blank

/-!
How much a configured log level lets through.
-/

namespace ReverseTunnel.Logging

/-- The severities of log lines, least severe first. -/
inductive Level where
  | trace
  | debug
  | info
  | warn
  | error
  deriving DecidableEq, Repr

def Level.name : Level → String
  | .trace => "trace"
  | .debug => "debug"
  | .info => "info"
  | .warn => "warn"
  | .error => "error"

/-- The level that a configuration names; what names none is `info`. -/
def levelOf (configured : String) : Level :=
  match Text.lowerAscii (Text.trim configured) with
  | "debug" => .debug
  | "warn" => .warn
  | "error" => .error
  | _ => .info

end ReverseTunnel.Logging

/-!
The arguments of the program.

The only option is the path of the configuration file, which may also come from the
environment. Arguments are read from left to right, and the first that asks for help
or for the version, or that cannot be read, decides.
-/

namespace ReverseTunnel.CommandLine

/-- The name and the version of the program. -/
def versionText : String := "tether 0.1.0\n"

/-- How the program is called. -/
def usageText : String := "Usage: tether [OPTIONS]\n"

/-- What the arguments may be. -/
def helpText : String := String.join [
  "Tether - reverse tunnel server and client\n\n",
  usageText,
  "\nOptions:\n",
  "      --config <CONFIG>  Path to the config file (.toml/.yaml/.yml) [env: TETHER_CONFIG=]\n",
  "  -h, --help             Print help\n",
  "  -V, --version          Print version\n"]

/-- What the arguments ask for. -/
inductive Request where
  | help
  | version
  /-- To run, with the file at a path if one is named. -/
  | run (config : Option String)
  deriving DecidableEq, Repr

/-- Whether an argument can be the value of an option: it is not blank and does not
look like an option. -/
def isValue (arg : String) : Bool :=
  match arg.toList with
  | [] => false
  | ['-'] => true
  | '-' :: _ => false
  | _ => true

/-- What an argument is by itself. -/
inductive Argument where
  | help
  | version
  /-- The option, whose value follows. -/
  | option
  /-- The option with its value. -/
  | optionWith (value : String)
  /-- What ends the options. -/
  | stop
  | unknown
  deriving DecidableEq, Repr

def Argument.of (arg : String) : Argument :=
  match arg with
  | "--help" => .help
  | "--version" => .version
  | "--config" => .option
  | "--" => .stop
  | _ =>
    match arg.toList with
    | '-' :: 'h' :: _ => .help
    | '-' :: 'V' :: _ => .version
    | '-' :: '-' :: 'c' :: 'o' :: 'n' :: 'f' :: 'i' :: 'g' :: '=' :: value =>
      .optionWith (String.ofList value)
    | _ => .unknown

/-- Reads the arguments that are left, after those that named a path or did not. -/
def requestAfter? (config : Option String) : List String → Option Request
  | [] => some (.run config)
  | arg :: rest =>
    match Argument.of arg with
    | .help => some .help
    | .version => some .version
    | .stop => if rest.isEmpty then some (.run config) else none
    | .optionWith value =>
      if value = "" || config.isSome then none else requestAfter? (some value) rest
    | .option =>
      match rest with
      | value :: rest =>
        if isValue value && config.isNone then requestAfter? (some value) rest else none
      | [] => none
    | .unknown => none

/-- What arguments ask for; none if they cannot be read. The environment names a path
where the arguments do not, and may not name an empty one. -/
def request? (args : List String) (environment : Option String) : Option Request :=
  match requestAfter? none args with
  | some (.run none) => if environment = some "" then none else some (.run environment)
  | r => r

end ReverseTunnel.CommandLine

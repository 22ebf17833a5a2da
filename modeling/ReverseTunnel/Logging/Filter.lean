import ReverseTunnel.Logging

/-!
Which log lines are let through.

A filter is a list of directives, each for the lines of one part of the program or for
all of them. The directive for the narrowest part decides, of several for the same
part the last one; a line that none is for is not let through.
-/

namespace ReverseTunnel.Logging

inductive Topic where
  | app
  | admin
  | server
  | client
  deriving DecidableEq, Repr

/-- The full name of a part. A name that it begins with stands for it and others. -/
def Topic.name : Topic → String
  | app => "tether::tether::app"
  | admin => "tether::tether::admin"
  | server => "tether::tether::tunnel::server"
  | client => "tether::tether::tunnel::client"

structure Line where
  topic : Topic
  level : Level
  text : String
  deriving DecidableEq, Repr

def Level.rank : Level → Nat
  | .trace => 0
  | .debug => 1
  | .info => 2
  | .warn => 3
  | .error => 4

/-- Lets lines from a level on through, or none at all. -/
structure Directive where
  /-- What the name of a part has to begin with. -/
  topic : String := ""
  threshold : Option Level
  deriving DecidableEq, Repr

/-- Whether a directive is for a line. -/
def Directive.covers (d : Directive) (l : Line) : Bool :=
  d.topic.toList.isPrefixOf l.topic.name.toList

/-- The directive that decides on a line. -/
def deciding? (ds : List Directive) (l : Line) : Option Directive :=
  -- the one with the longest name, and of several the last
  ds.foldl (fun best d =>
    if d.covers l && best.all (fun b => b.topic.length ≤ d.topic.length) then some d else best)
    none

/-- Whether a line is let through. -/
def isLetThrough (ds : List Directive) (l : Line) : Bool :=
  match (deciding? ds l).bind (·.threshold) with
  | some threshold => threshold.rank ≤ l.level.rank
  | none => false

/-- The threshold that a word names: by name in whatever case or by number. -/
def threshold? (word : String) : Option (Option Level) :=
  match Text.lowerAscii word with
  | "off" | "0" => some none
  | "error" | "1" => some (some .error)
  | "warn" | "2" => some (some .warn)
  | "info" | "3" => some (some .info)
  | "debug" | "4" => some (some .debug)
  | "trace" | "5" => some (some .trace)
  | _ => none

/-- A character that the name of a part may have. -/
def isTopicChar (c : Char) : Bool := c.isAlphanum || c == '_' || c == ':' || c == '-'

/-- Reads a directive: a threshold, the name of a part, or both with an equals sign
between them. A part without a threshold is let through as a whole. -/
def directive? (text : String) : Option Directive :=
  let cs := Text.trimChars text.toList
  let topic := cs.takeWhile (· ≠ '=')
  if topic.isEmpty || !topic.all isTopicChar then none
  else
    match cs.drop topic.length with
    | [] =>
      match threshold? (String.ofList topic) with
      | some threshold => some { threshold }
      | none => some { topic := String.ofList topic, threshold := some .trace }
    | [_] => some { topic := String.ofList topic, threshold := some .trace }
    | _ :: level =>
      (threshold? (String.ofList level)).map fun threshold =>
        { topic := String.ofList topic, threshold }

/-- Reads a filter, with commas between its directives. Without any, errors are let
through. -/
def filter? (text : String) : Option (List Directive) :=
  match (text.splitOn ",").filter (· ≠ "") with
  | [] => some [{ threshold := some .error }]
  -- one directive that cannot be read spoils the filter
  | pieces => pieces.mapM directive?

/-- The filter in force: the one of the environment if it can be read, else the level
that is configured. -/
def filterOf (environment : Option String) (configured : String) : List Directive :=
  (environment.bind filter?).getD [{ threshold := some (levelOf configured) }]

end ReverseTunnel.Logging

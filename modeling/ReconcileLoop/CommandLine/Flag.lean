namespace ReconcileLoop.CommandLine

/-! # Commands and flags

The first plain word of a command line names a command. Flags before it and behind it choose
settings; the general ones are understood in both places, the others by their command alone.
-/

inductive Command where
  /-- Give every annotated service an ingress. -/
  | ingress
  /-- Give every app a deployment and a service. -/
  | app
  /-- Print the definition of the kind of apps. -/
  | definition
deriving DecidableEq, Repr, Inhabited

namespace Command

def name : Command → String
  | ingress => "ingress"
  | app => "app"
  | definition => "crd"

def all : List Command := [ingress, app, definition]

def ofName? (word : String) : Option Command := all.find? (·.name = word)

end Command

inductive Setting where
  | space
  | workers
  | maxRetries
  | resyncSeconds
  | queueCapacity
  /-- The annotation that asks for an ingress. -/
  | mark
  | matcher
  | value
  | host
  | ingressClass
  | port
deriving DecidableEq, Repr, Inhabited

namespace Setting

def name : Setting → String
  | space => "ns"
  | workers => "workers"
  | maxRetries => "max-retries"
  | resyncSeconds => "resync-secs"
  | queueCapacity => "queue-cap"
  | mark => "annotation"
  | matcher => "match"
  | value => "value"
  | host => "host"
  | ingressClass => "class"
  | port => "port"

def general : List Setting := [space, workers, maxRetries, resyncSeconds, queueCapacity]

def ofCommand : Command → List Setting
  | .ingress => [mark, matcher, value, host, ingressClass, port]
  | _ => []

/-- The variable of the environment that gives a general setting where no flag does. -/
def environmentName? : Setting → Option String
  | space => some "STEWARD_NAMESPACE"
  | workers => some "STEWARD_WORKERS"
  | maxRetries => some "STEWARD_MAX_RETRIES"
  | resyncSeconds => some "STEWARD_RESYNC_SECS"
  | queueCapacity => some "STEWARD_QUEUE_CAP"
  | _ => none

end Setting

inductive Fault where
  | help
  | version
  | nothingGiven
  | missingCommand
  | unknownCommand (word : String)
  | unexpected (argument : String)
  | missingValue (setting : Setting)
  | unknownChoice (setting : Setting) (text : String)
  | unreadableValue (setting : Setting) (text : String)
  | repeated (setting : Setting)
  /-- A flag that takes no value has got one. -/
  | needlessValue (flag : String)
deriving DecidableEq, Repr, Inhabited

/-- A part of a command line: what stands before the command, or behind it. -/
inductive Level where
  | outer
  | inner (command : Command)
deriving DecidableEq, Repr, Inhabited

inductive Flag where
  | choose (setting : Setting)
  | help
  | version
deriving DecidableEq, Repr, Inhabited

namespace Level

def settings : Level → List Setting
  | outer => Setting.general
  | inner command => Setting.general ++ Setting.ofCommand command

/-- The flag of a name. Only the program as a whole has a version. -/
def flag? (level : Level) (name : String) : Option Flag :=
  if name = "help" then some .help
  else if name = "version" ∧ level = outer then some .version
  else (level.settings.find? (·.name = name)).map .choose

def letterFlag? (level : Level) (letter : Char) : Option Flag :=
  if letter = 'h' then some .help
  else if letter = 'V' ∧ level = outer then some .version
  else none

end Level

end ReconcileLoop.CommandLine

import ReconcileLoop.App.Definition
import ReconcileLoop.CommandLine.Invocation
import ReconcileLoop.Json.Yaml

namespace ReconcileLoop.CommandLine

/-! # Running the program

What a run of the program prints and the code it ends with. A run that controls something needs a
cluster; none is configured here, so such a run ends before it begins.
-/

structure Outcome where
  code : Nat
  output : String := ""
  error? : Option String := none
deriving DecidableEq, Repr, Inhabited

def versionText : String := "steward 0.0.0\n"

def flagLine (setting : Setting) (text : String) : String :=
  "  --" ++ setting.name ++ " <VALUE>  " ++ text ++ "\n"

def helpText : String :=
  "Level-triggered reconciliation controllers\n\nUsage: steward [OPTIONS] <COMMAND>\n\nCommands:\n" ++
    "  ingress  Give every annotated Service an Ingress\n" ++
    "  app      Reconcile App resources into a Deployment and a Service\n" ++
    "  crd      Print the App CustomResourceDefinition as YAML\n" ++
    "  help     Print this message\n\nOptions:\n" ++
    flagLine .space "Namespace to watch (default: all namespaces)" ++
    flagLine .workers "Concurrent reconcile workers" ++
    flagLine .maxRetries "Failed passes retried per object before giving up" ++
    flagLine .resyncSeconds "Re-enqueue every primary this often; 0 disables" ++
    flagLine .queueCapacity "Buffer between each watcher and its cache" ++
    "\nOptions of ingress:\n" ++
    flagLine .mark "Annotation that asks for an Ingress" ++
    flagLine .matcher "How the annotation value is judged: presence or exact" ++
    flagLine .value "Required value for --match exact" ++
    flagLine .host "Host of the Ingress" ++
    flagLine .ingressClass "Class of the Ingress" ++
    flagLine .port "Service port of the Ingress"

namespace Fault

/-- What is said about a command line that is not carried out. -/
def message : Fault → String
  | help => helpText
  | version => versionText
  | nothingGiven => helpText
  | missingCommand => "a command is missing"
  | unknownCommand word => "unrecognized command " ++ Text.quoted word
  | unexpected argument => "unexpected argument " ++ Text.quoted argument
  | missingValue setting => "--" ++ setting.name ++ " needs a value"
  | unknownChoice setting text => Text.quoted text ++ " is no choice for --" ++ setting.name
  | unreadableValue setting text => Text.quoted text ++ " is no value for --" ++ setting.name
  | repeated setting => "--" ++ setting.name ++ " is given more than once"
  | needlessValue flag => "the flag in " ++ Text.quoted flag ++ " takes no value"

/-- To ask for help or for the version is no mistake. -/
def outcome (fault : Fault) : Outcome :=
  match fault with
  | help => { code := 0, output := fault.message }
  | version => { code := 0, output := fault.message }
  | _ => { code := 2, error? := some fault.message }

end Fault

/-- What becomes of a command that needs a cluster. -/
def withoutCluster : Outcome := { code := 1, error? := some "inferring kube client config" }

namespace Invocation

def run (invocation : Invocation) : Outcome :=
  match invocation.command with
  | .definition => { code := 0, output := App.definition.yaml }
  | .app => withoutCluster
  | .ingress =>
      match invocation.ingressTemplate with
      | .ok _ => withoutCluster
      | .error message => { code := 1, error? := some message }

end Invocation

def run (environment : List (String × String)) (arguments : List String) : Outcome :=
  match Invocation.parse environment arguments with
  | .ok invocation => invocation.run
  | .error fault => fault.outcome

end ReconcileLoop.CommandLine

import ReconcileLoop.CommandLine.Invocation
import ReconcileLoop.Wire.Settings

namespace ReconcileLoop.CommandLine

/-! # Invocations as JSON -/

def Fault.name : Fault → String
  | help => "DisplayHelp"
  | version => "DisplayVersion"
  | nothingGiven => "DisplayHelpOnMissingArgumentOrSubcommand"
  | missingCommand => "MissingSubcommand"
  | unknownCommand _ => "InvalidSubcommand"
  | unexpected _ => "UnknownArgument"
  | missingValue _ => "InvalidValue"
  | unknownChoice _ _ => "InvalidValue"
  | unreadableValue _ _ => "ValueValidation"
  | repeated _ => "ArgumentConflict"
  | needlessValue _ => "TooManyValues"

def Invocation.toJson (invocation : Invocation) : Json :=
  let template := match invocation.ingressTemplate with
    | .ok template => template.toJson
    | .error message => .ofMembers [("error", .str "Template"), ("message", .str message)]
  .ofOptions
    [("command", some (.str invocation.command.name)), ("config", some invocation.settings.toJson),
      ("template", if invocation.command = .ingress then some template else none)]

end ReconcileLoop.CommandLine

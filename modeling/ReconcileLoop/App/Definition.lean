import ReconcileLoop.App.Basic

namespace ReconcileLoop

/-! # The definition of apps

The cluster serves a kind of objects that it does not know by itself after it was given a definition:
the names of the kind, what is shown of its objects in lists, and a schema for their content. The
schema says of each member what `App.decode` makes of it.
-/

namespace Schema

def adding (name : String) (value : Json) : Json → Json
  | .obj members => .obj (Json.insertMember name value members)
  | other => other

def text : Json := .ofMembers [("type", .str "string")]

def int32 : Json := .ofMembers [("type", .str "integer"), ("format", .str "int32")]

def list (items : Json) : Json := .ofMembers [("type", .str "array"), ("items", items)]

def record (members : List (String × Json)) (required : List String) : Json :=
  .ofMembers (("type", .str "object") :: ("properties", .ofMembers members) ::
    if required.isEmpty then [] else [("required", .arr (required.map .str))])

/-- What may be `null` as well. -/
def nullable (schema : Json) : Json := Schema.adding "nullable" (.bool true) schema

/-- What has a value if it is absent. -/
def withDefault (value schema : Json) : Json := Schema.adding "default" value schema

def described (text : String) (schema : Json) : Json := Schema.adding "description" (.str text) schema

end Schema

namespace DeploymentTemplate

def schema : Json :=
  Schema.described "An empty name means no Deployment." <| Schema.record
    [("name", Schema.withDefault (.str "") Schema.text),
      ("image", Schema.withDefault (.str "") Schema.text),
      ("replicas", Schema.nullable Schema.int32)] []

end DeploymentTemplate

namespace ServiceTemplate

def schema : Json :=
  Schema.described "An empty name means no Service." <| Schema.record
    [("name", Schema.withDefault (.str "") Schema.text),
      ("port", Schema.described "Defaults to 8080." (Schema.nullable Schema.int32))] []

end ServiceTemplate

namespace AppSpec

def schema : Json :=
  let default : AppSpec := {}
  Schema.record
    [("deploymentTemplate",
        Schema.withDefault default.deploymentTemplate.encode DeploymentTemplate.schema),
      ("serviceTemplate", Schema.withDefault default.serviceTemplate.encode ServiceTemplate.schema)]
    []

end AppSpec

namespace DeploymentSummary

def schema : Json :=
  let numbers := ["availableReplicas", "readyReplicas", "replicas", "updatedReplicas"]
  Schema.record (numbers.map fun name => (name, Schema.int32)) numbers

end DeploymentSummary

namespace ServiceSummary

def schema : Json :=
  Schema.record
    [("clusterIp", Schema.nullable Schema.text),
      ("loadBalancerIngress",
        Schema.described "IPs or hostnames published by the load balancer." <|
          Schema.withDefault (.arr []) (Schema.list Schema.text))] []

end ServiceSummary

namespace AppStatus

def schema : Json :=
  let deployment := Schema.described
    "\x60null\x60 once the Deployment is no longer wanted, so a merge patch clears it."
    DeploymentSummary.schema
  Schema.record
    [("deployment", Schema.nullable deployment),
      ("service", Schema.nullable ServiceSummary.schema)] []

end AppStatus

namespace App

def schema : Json :=
  let whole := Schema.record
    [("spec", AppSpec.schema), ("status", Schema.nullable AppStatus.schema)] ["spec"]
  Schema.adding "title" (.str kind.name) <|
    Schema.described "Auto-generated derived type for AppSpec via \x60CustomResource\x60" whole

def column (name path : String) : Json :=
  .ofMembers [("name", .str name), ("type", .str "string"), ("jsonPath", .str path)]

/-- The definition of the kind of apps, which have a status that is written apart. -/
def definition : Json :=
  let names : Json := .ofMembers
    [("categories", .arr []), ("kind", .str kind.name), ("plural", .str kind.plural),
      ("shortNames", .arr [.str "app"]), ("singular", .str "app")]
  let version : Json := .ofMembers
    [("additionalPrinterColumns", .arr
        [column "Deployment" ".spec.deploymentTemplate.name",
          column "Service" ".spec.serviceTemplate.name"]),
      ("name", .str kind.version), ("schema", .ofMembers [("openAPIV3Schema", schema)]),
      ("selectableFields", .arr []), ("served", .bool true), ("storage", .bool true),
      ("subresources", .ofMembers [("status", .obj [])])]
  .ofMembers
    [("apiVersion", .str "apiextensions.k8s.io/v1"), ("kind", .str "CustomResourceDefinition"),
      ("metadata", .ofMembers [("name", .str (kind.plural ++ "." ++ kind.group))]),
      ("spec", .ofMembers
        [("group", .str kind.group), ("names", names), ("scope", .str "Namespaced"),
          ("versions", .arr [version])])]

end App

end ReconcileLoop

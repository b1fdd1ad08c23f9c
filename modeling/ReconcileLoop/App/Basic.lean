import ReconcileLoop.Json.Record
import ReconcileLoop.Object.Resource

namespace ReconcileLoop

/-! # Apps

An app asks for a deployment and for a service; a part without a name is not wanted. Its status
repeats what the two report. `App.encode` and `App.decode` give the JSON of an app: unset numbers
and an unset status are left out, but the two parts of a status are always written, as `null` when
there is nothing to report.
-/

/-- The deployment that an app asks for; without a name it asks for none. -/
structure DeploymentTemplate where
  name : String := ""
  image : String := ""
  replicas : Option Int32 := none
deriving DecidableEq, Repr, Inhabited

/-- The service that an app asks for; without a name it asks for none. -/
structure ServiceTemplate where
  name : String := ""
  port : Option Int32 := none
deriving DecidableEq, Repr, Inhabited

structure AppSpec where
  deploymentTemplate : DeploymentTemplate := {}
  serviceTemplate : ServiceTemplate := {}
deriving DecidableEq, Repr, Inhabited

/-- What the deployment of an app reports. -/
structure DeploymentSummary where
  replicas : Int32
  readyReplicas : Int32
  availableReplicas : Int32
  updatedReplicas : Int32
deriving DecidableEq, Repr, Inhabited

/-- What the service of an app reports. -/
structure ServiceSummary where
  clusterIp : Option String := none
  /-- The addresses and host names that the load balancer published. -/
  loadBalancerIngress : List String := []
deriving DecidableEq, Repr, Inhabited

structure AppStatus where
  deployment : Option DeploymentSummary := none
  service : Option ServiceSummary := none
deriving DecidableEq, Repr, Inhabited

structure App (μ : Type := Metadata) where
  metadata : μ
  spec : AppSpec := {}
  status : Option AppStatus := none
deriving DecidableEq, Inhabited

namespace DeploymentTemplate

def encode (template : DeploymentTemplate) : Json :=
  .ofOptions
    [("image", some (.str template.image)), ("name", some (.str template.name)),
      ("replicas", template.replicas.map .ofInt32)]

def decode (value : Json) : Option DeploymentTemplate := do
  guard (value.isRecord 3)
  let name ← value.defaulted? Json.str? "" 0 "name"
  let image ← value.defaulted? Json.str? "" 1 "image"
  let replicas ← value.defaulted? (Json.nullable? Json.int32?) none 2 "replicas"
  return { name, image, replicas }

end DeploymentTemplate

namespace ServiceTemplate

def encode (template : ServiceTemplate) : Json :=
  .ofOptions [("name", some (.str template.name)), ("port", template.port.map .ofInt32)]

def decode (value : Json) : Option ServiceTemplate := do
  guard (value.isRecord 2)
  let name ← value.defaulted? Json.str? "" 0 "name"
  let port ← value.defaulted? (Json.nullable? Json.int32?) none 1 "port"
  return { name, port }

end ServiceTemplate

namespace AppSpec

def encode (spec : AppSpec) : Json :=
  .ofOptions
    [("deploymentTemplate", some spec.deploymentTemplate.encode),
      ("serviceTemplate", some spec.serviceTemplate.encode)]

def decode (value : Json) : Option AppSpec := do
  guard (value.isRecord 2)
  let deploymentTemplate ←
    value.defaulted? DeploymentTemplate.decode {} 0 "deploymentTemplate"
  let serviceTemplate ← value.defaulted? ServiceTemplate.decode {} 1 "serviceTemplate"
  return { deploymentTemplate, serviceTemplate }

end AppSpec

namespace DeploymentSummary

def encode (summary : DeploymentSummary) : Json :=
  .ofOptions
    [("availableReplicas", some (.ofInt32 summary.availableReplicas)),
      ("readyReplicas", some (.ofInt32 summary.readyReplicas)),
      ("replicas", some (.ofInt32 summary.replicas)),
      ("updatedReplicas", some (.ofInt32 summary.updatedReplicas))]

def decode (value : Json) : Option DeploymentSummary := do
  guard (value.isRecord 4)
  let replicas ← value.required? Json.int32? 0 "replicas"
  let readyReplicas ← value.required? Json.int32? 1 "readyReplicas"
  let availableReplicas ← value.required? Json.int32? 2 "availableReplicas"
  let updatedReplicas ← value.required? Json.int32? 3 "updatedReplicas"
  return { replicas, readyReplicas, availableReplicas, updatedReplicas }

end DeploymentSummary

namespace ServiceSummary

def encode (summary : ServiceSummary) : Json :=
  .ofOptions
    [("clusterIp", summary.clusterIp.map .str),
      ("loadBalancerIngress", some (.arr (summary.loadBalancerIngress.map .str)))]

def decode (value : Json) : Option ServiceSummary := do
  guard (value.isRecord 2)
  let clusterIp ← value.defaulted? (Json.nullable? Json.str?) none 0 "clusterIp"
  let loadBalancerIngress ← value.defaulted? (Json.listOf? Json.str?) [] 1 "loadBalancerIngress"
  return { clusterIp, loadBalancerIngress }

end ServiceSummary

namespace AppStatus

def encode (status : AppStatus) : Json :=
  .ofOptions
    [("deployment", some (.ofOption (status.deployment.map DeploymentSummary.encode))),
      ("service", some (.ofOption (status.service.map ServiceSummary.encode)))]

def decode (value : Json) : Option AppStatus := do
  guard (value.isRecord 2)
  let deployment ← value.nullableMember? DeploymentSummary.decode 0 "deployment"
  let service ← value.nullableMember? ServiceSummary.decode 1 "service"
  return { deployment, service }

end AppStatus

namespace App

variable {μ : Type} [ObjectMeta μ]

def kind : Kind := ⟨"appcontroller.k8s.io", "v1", "App", "apps"⟩

def encode (app : App μ) : Json :=
  .ofOptions
    [("apiVersion", some (.str kind.apiVersion)), ("kind", some (.str kind.name)),
      ("metadata", some (ObjectMeta.encode app.metadata)), ("spec", some app.spec.encode),
      ("status", app.status.map AppStatus.encode)]

def decode (value : Json) : Option (App μ) := do
  guard (value.isRecord 3)
  let metadata ← value.required? ObjectMeta.decode 0 "metadata"
  let spec ← value.required? AppSpec.decode 1 "spec"
  let status ← value.nullableMember? AppStatus.decode 2 "status"
  return { metadata, spec, status }

instance : Resource (App μ) where
  kind := kind
  metadata app := ObjectMeta.view app.metadata
  withMetadata app given := { app with metadata := ObjectMeta.update app.metadata given }
  encode := encode
  decode := decode
  metadata_withMetadata app given := ObjectMeta.view_update app.metadata given

end App

end ReconcileLoop

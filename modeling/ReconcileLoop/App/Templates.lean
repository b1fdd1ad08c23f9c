import ReconcileLoop.App.Basic
import ReconcileLoop.Object.Manifest
import ReconcileLoop.Template

namespace ReconcileLoop.App

/-! # What an app owns

A deployment and a service, found by a label that carries the name of the app.
-/

/-- The label by which the parts of an app find each other. -/
def label : String := "appcontroller.k8s.io/app"

def containerName : String := "app-deploy-container"

def servicePortName : String := "app-service"

/-- The port of a service that asks for none. -/
def defaultServicePort : Int32 := 8080

/-- The part of the status of an app that is computed; without one nothing was reported. -/
instance : Primary App AppStatus where
  status app := app.status.getD {}
  setStatus app status := { app with status := some status }
  affectsDependents old new :=
    decide (old.spec ≠ new.spec) || decide (old.metadata.uid ≠ new.metadata.uid)

def labels (name : String) : TextMap := (∅ : TextMap).insert label name

/-- The metadata of a part: its own name, and the labels of the app. -/
def partMetadata (name : String) (labels : TextMap) : Metadata :=
  { name := some name, labels := some labels }

def renderDeployment (app : App) : Option Deployment :=
  let wanted := app.spec.deploymentTemplate
  if wanted.name = "" then none
  else
    app.metadata.name.map fun name =>
      let selected := (labels name).toJson
      let container : Json := .ofMembers
        [("name", .str containerName), ("image", .str wanted.image)]
      let pod : Json := .ofMembers
        [("metadata", .ofMembers [("labels", selected)]),
          ("spec", .ofMembers [("containers", .arr [container])])]
      { metadata := partMetadata wanted.name (labels name)
        content := [("spec", .ofOptions
          [("replicas", wanted.replicas.map .ofInt32),
            ("selector", some (.ofMembers [("matchLabels", selected)])),
            ("template", some pod)])] }

/-- A number in the status of a deployment; an unset one is zero. -/
def reported (deployment : Deployment) (name : String) : Int32 :=
  (((deployment.status?.getD .null).get? name).bind Json.int32?).getD 0

def summarizeDeployment (deployment : Deployment) : DeploymentSummary :=
  { replicas := reported deployment "replicas"
    readyReplicas := reported deployment "readyReplicas"
    availableReplicas := reported deployment "availableReplicas"
    updatedReplicas := reported deployment "updatedReplicas" }

def deploymentTemplate : Template App AppStatus Deployment where
  render := renderDeployment
  observe deployment status := { status with deployment := some (summarizeDeployment deployment) }
  clear status := { status with deployment := none }

def renderService (app : App) : Option Service :=
  let wanted := app.spec.serviceTemplate
  if wanted.name = "" then none
  else
    app.metadata.name.map fun name =>
      let port : Json := .ofMembers
        [("name", .str servicePortName), ("port", .ofInt32 (wanted.port.getD defaultServicePort))]
      { metadata := partMetadata wanted.name (labels name)
        content := [("spec", .ofMembers
          [("ports", .arr [port]), ("selector", (labels name).toJson)])] }

/-- Where a load balancer can be reached: by address, or else by host name. -/
def ingressPoint? (point : Json) : Option String :=
  match (point.get? "ip").bind Json.str? with
  | some address => some address
  | none => (point.get? "hostname").bind Json.str?

def summarizeService (service : Service) : ServiceSummary :=
  let balancer := ((service.status?.getD .null).get? "loadBalancer").getD .null
  { clusterIp := ((service.spec?.getD .null).get? "clusterIP").bind Json.str?
    loadBalancerIngress :=
      (((balancer.get? "ingress").bind Json.items?).getD []).filterMap ingressPoint? }

def serviceTemplate : Template App AppStatus Service where
  render := renderService
  observe service status := { status with service := some (summarizeService service) }
  clear status := { status with service := none }

end ReconcileLoop.App

import ReconcileLoop.Object.Manifest
import ReconcileLoop.Template

namespace ReconcileLoop

/-! # Ingresses for services

A service that carries a certain annotation owns an ingress of the same name, which routes one path
of one host to it. The status of a service is none of our business.
-/

inductive AnnotationMatch where
  /-- Any value will do, the empty one too. -/
  | presence
  | exact (value : String)
deriving DecidableEq, Repr, Inhabited

/-- Which services get an ingress, and what it looks like. -/
structure IngressTemplate where
  annotation : String := "ingress/http"
  matcher : AnnotationMatch := .presence
  ingressClass : String := "ingress"
  host : String := "example.com"
  path : String := "/"
  port : Int32 := 80
deriving DecidableEq, Repr, Inhabited

namespace AnnotationMatch

def accepts (matcher : AnnotationMatch) (value : String) : Bool :=
  match matcher with
  | presence => true
  | exact wanted => value = wanted

end AnnotationMatch

namespace IngressTemplate

def isWanted (template : IngressTemplate) (metadata : Metadata) : Bool :=
  match metadata.annotations.bind (·[template.annotation]?) with
  | some value => template.matcher.accepts value
  | none => false

def render (template : IngressTemplate) (service : Service) : Option Ingress :=
  if template.isWanted service.metadata then
    service.metadata.name.map fun name =>
      let backend : Json := .ofMembers
        [("service", .ofMembers
          [("name", .str name), ("port", .ofMembers [("number", .int template.port.toInt)])])]
      let path : Json := .ofMembers
        [("path", .str template.path), ("pathType", .str "Prefix"), ("backend", backend)]
      let rule : Json := .ofMembers
        [("host", .str template.host), ("http", .ofMembers [("paths", .arr [path])])]
      { metadata := { name := some name }
        content := [("spec", .ofMembers
          [("ingressClassName", .str template.ingressClass), ("rules", .arr [rule])])] }
  else none

/-- The ingress of a service. Nothing of it is taken over into the service. -/
def toTemplate (template : IngressTemplate) : Template Service Unit Ingress where
  render := template.render

end IngressTemplate

instance : Primary Service Unit where
  status _ := ()
  setStatus service _ := service
  affectsDependents old new :=
    decide (old.metadata.annotations ≠ new.metadata.annotations) ||
      decide (old.metadata.uid ≠ new.metadata.uid)

end ReconcileLoop

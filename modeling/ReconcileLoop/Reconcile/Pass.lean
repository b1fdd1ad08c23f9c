import ReconcileLoop.App.Templates
import ReconcileLoop.Ingress.Template
import ReconcileLoop.Metrics
import ReconcileLoop.Reconcile.Dependent
import ReconcileLoop.Reconcile.Event

namespace ReconcileLoop

/-! # Reconcile passes

A pass looks up the primary of a key, brings all its dependents in line, and then writes the status
that follows from them. It stops at the first failure, before the status is written; so either
everything succeeds or the primary stays as it was.
-/

structure Dependent (α σ : Type) where
  type : BuiltIn
  template : Template α σ (Manifest type)

structure Reconciler (α σ : Type) where
  name : String
  /-- The kinds of dependents, in the order in which they are brought in line. -/
  dependents : List (Dependent α σ)

structure PassOutcome (α : Type) where
  result : Except ReconcileError Unit
  world : World α
  events : List Event := []

variable {α σ : Type} [Primary α σ]

def Dependent.sync (dependent : Dependent α σ) (world : World α) (primary : α) (status : σ) :
    Except ReconcileError (Bool × σ) × World α :=
  let (result, access) :=
    (world.dependents.get dependent.type).sync dependent.template primary status
  (result, { world with dependents := world.dependents.set dependent.type access })

/-- Brings several kinds of dependents in line, up to the first failure. -/
def Dependent.syncAll (world : World α) (primary : α) (status : σ) :
    List (Dependent α σ) → Except ReconcileError (Bool × σ) × World α
  | [] => (.ok (false, status), world)
  | dependent :: rest =>
      match dependent.sync world primary status with
      | (.error error, after) => (.error error, after)
      | (.ok (changed, observed), after) =>
          match syncAll after primary observed rest with
          | (.error error, last) => (.error error, last)
          | (.ok (more, final), last) => (.ok (changed || more, final), last)

namespace World

def objectReference? (world : World α) (key : Key) : Option ObjectReference :=
  (world.primary.cache.get? key).map .to

/-- The primary that a pass for a key works on: it is cached and does not have to go away. -/
def subject? (world : World α) (key : Key) : Option α :=
  (world.primary.cache.get? key).filter fun primary =>
    (Resource.metadata primary).deletionTimestamp.isNone

def failureEvents (primary : α) : ReconcileError → List Event
  | .ownershipConflict _ taken _ _ =>
      [.nameTaken (Resource.kindName α) taken.name (.to primary)]
  | _ => []

/-- The events of a pass that succeeded, which are none if it changed nothing. -/
def successEvents (primary : α) (mutated : Bool) : List Event :=
  if mutated then [.synced (Resource.kindName α) (.to primary)] else []

/-- Writes the status of a primary if it changed. A primary that is gone needs no status, and no
event either. -/
def writeStatus [DecidableEq σ] (world : World α) (primary : α) (status : σ) (mutated : Bool) :
    PassOutcome α :=
  if status = Primary.status primary then
    { result := .ok (), world, events := successEvents primary mutated }
  else
    match world.primary.api.updateStatus (Primary.setStatus primary status) with
    | (.ok _, api) =>
        { result := .ok (), world := { world with primary := { world.primary with api } }
          events := successEvents primary true }
    | (.error error, api) =>
        { result := if error.isNotFound then .ok () else .error (.store error)
          world := { world with primary := { world.primary with api } } }

end World

namespace Reconciler

/-- One pass for a key. There is nothing to do for a primary that is gone or going. -/
def pass [DecidableEq σ] (reconciler : Reconciler α σ) (world : World α) (key : Key) :
    PassOutcome α :=
  match world.subject? key with
  | none => { result := .ok (), world }
  | some primary =>
      match Dependent.syncAll world primary (Primary.status primary) reconciler.dependents with
      | (.error error, after) =>
          { result := .error error, world := after, events := World.failureEvents primary error }
      | (.ok (mutated, status), after) => after.writeStatus primary status mutated

def resultLabel : Except ReconcileError Unit → String
  | .ok () => "ok"
  | .error _ => "error"

def durations (controller : String) (result : Except ReconcileError Unit) : Series :=
  ⟨.passDuration, [("controller", controller), ("result", resultLabel result)]⟩

end Reconciler

/-- The passes for apps: first their deployments, then their services. -/
def Reconciler.ofApps (name : String) : Reconciler App AppStatus where
  name := name
  dependents := [⟨.deployment, App.deploymentTemplate⟩, ⟨.service, App.serviceTemplate⟩]

def Reconciler.ofServices (name : String) (template : IngressTemplate) : Reconciler Service Unit where
  name := name
  dependents := [⟨.ingress, template.toTemplate⟩]

end ReconcileLoop

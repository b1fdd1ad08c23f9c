import ReconcileLoop.Controller.CrashPoints
import ReconcileLoop.Controller.Settings
import ReconcileLoop.Controller.Worker
import ReconcileLoop.Route

namespace ReconcileLoop

/-! # Controllers

A controller watches its primaries and their dependents, routes what changes to a queue of keys,
and has workers make passes for the keys. Workers start when all caches have synced, and stop on
shutdown after the pass they are making. All tasks move in atomic steps; `Controller.step?` picks the
next one, and time moves on when there is none.
-/

inductive Phase where
  /-- Built, but not to be run. -/
  | built
  | waiting
  | running
  /-- Shut down; waits for the workers to stop. -/
  | stopping
  | finished (result : Except String Unit)
deriving Inhabited

/-- A controller with the stores it works on. -/
structure Controller (α σ : Type) where
  reconciler : Reconciler α σ
  settings : Settings
  primary : Site α := {}
  dependents : PerKind fun type => Site (Manifest type) := .ofFun fun _ => {}
  queue : WorkQueue Key
  workers : List Worker := []
  phase : Phase := .built
  /-- When all cached primaries are looked at again. -/
  nextResync : Option Nat := none
  shutdown : Bool := false
  events : List Event := []
  reports : List FailureReport := []
  /-- The messages of the crashes that the next passes meet when they render. -/
  crashes : List String := []
  /-- The metrics that are broken, each for one use. -/
  broken : List Metric := []

namespace Controller

variable {α σ : Type}

/-- A controller that has not started. Until then only the clock of its queue matters. Each store
makes up uids of its own. -/
def idle (reconciler : Reconciler α σ) (settings : Settings) : Controller α σ :=
  { reconciler, settings
    dependents := .ofFun fun type => { api := { store := { uids := Store.serialUid (type.ctorIdx + 1) } } }
    queue := { limiter := settings.limiter 0 } }

def kinds (controller : Controller α σ) : List BuiltIn :=
  controller.reconciler.dependents.map (·.type)

def world (controller : Controller α σ) : World α :=
  { primary := controller.primary.access
    dependents := .ofFun fun type => (controller.dependents.get type).access }

def absorb (controller : Controller α σ) (world : World α) : Controller α σ :=
  { controller with
    primary := { controller.primary with api := world.primary.api }
    dependents := .ofFun fun type =>
      { controller.dependents.get type with api := (world.dependents.get type).api } }

/-- What can be seen of the caches by somebody who waits for them, dependents first. -/
def signals (controller : Controller α σ) : List SyncSignal :=
  controller.kinds.map (fun type => (controller.dependents.get type).ingest.signal) ++
    [controller.primary.ingest.signal]

/-- Whether the caches have synced, as far as it is decided. -/
def synced? (controller : Controller α σ) : Option Bool :=
  awaitSync controller.shutdown controller.signals

/-- Starts to watch all kinds, and to run if that is wanted. -/
def start (controller : Controller α σ) (run : Bool) : Controller α σ :=
  let capacity := controller.settings.ingestCapacity
  { controller with
    primary := controller.primary.watch capacity
    dependents := .ofFun fun type =>
      let site := controller.dependents.get type
      if type ∈ controller.kinds then site.watch capacity else site
    queue := { controller.queue with
      limiter := controller.settings.limiter controller.queue.now }
    phase := if run then .waiting else .built }

/-- What is left of an operation that crashes, together with the controller for which the broken
metric is used up; none if the operation does not crash. -/
def crash? {β : Type} (controller : Controller α σ) (points : List (CrashPoint β)) :
    Option (β × Controller α σ) :=
  (CrashPoint.first? controller.broken points).map fun point =>
    (point.left, { controller with broken := controller.broken.erase point.metric })

theorem crash?_eq_none {β : Type} {controller : Controller α σ} (intact : controller.broken = [])
    (points : List (CrashPoint β)) : controller.crash? points = none := by
  simp [crash?, intact, CrashPoint.first?_nil]

/-- Adds a key to the queue; false if that crashed. -/
def addKey (controller : Controller α σ) (key : Key) : Controller α σ × Bool :=
  match controller.crash? (controller.queue.addCrashPoints key) with
  | some (queue, after) => ({ after with queue }, false)
  | none => ({ controller with queue := controller.queue.add key }, true)

/-- When the resync after a number of earlier ones is due. -/
def resyncAfter (controller : Controller α σ) (started : Nat) : Option Nat :=
  controller.settings.resync.bind fun period =>
    if period = 0 then none else some (started + period)

/-- A step of the run itself: from waiting to running, and to its end. -/
def phaseStep? (controller : Controller α σ) : Option (Controller α σ) :=
  match controller.phase with
  | .waiting =>
      match controller.synced? with
      | none => none
      | some true =>
          some { controller with
            phase := .running
            workers := List.replicate (max controller.settings.workers 1) (.getting .fresh)
            nextResync := controller.resyncAfter controller.queue.now }
      | some false =>
          some { controller with
            phase := .finished
              (if controller.shutdown then .ok ()
              else .error (controller.reconciler.name ++ ": caches closed before syncing")) }
  | .running =>
      if controller.shutdown then
        some { controller with
          phase := .stopping, queue := controller.queue.shutDown, nextResync := none }
      else none
  | .stopping =>
      if controller.workers.all Worker.isStopped then
        some { controller with phase := .finished (.ok ()) }
      else none
  | _ => none

variable [Primary α σ]

/-- Adds the key that a signal is about to the queue; false if that crashed. -/
def routeSignal (controller : Controller α σ) (signal : Signal α) : Controller α σ × Bool :=
  match Route.key? signal with
  | some key =>
      match controller.crash? [⟨.routed, ()⟩] with
      | some ((), after) => (after, false)
      | none => controller.addKey key
  | none => (controller, true)

/-- A step of the watch on a kind, whose site is put back by a function and whose notifications
make signals. The task of a cache that crashes is gone. -/
def watchStep? {δ : Type} [Resource δ] (controller : Controller α σ) (site : Site δ)
    (withSite : Controller α σ → Site δ → Controller α σ) (signal : Notification δ → Signal α) :
    Option (Controller α σ) :=
  match controller.crash? (site.crashPoints controller.shutdown) with
  | some ((), after) => some (withSite after site.crash)
  | none => do
      let (site, note?) ← site.step? controller.shutdown
      let after := withSite controller site
      match note?.map fun note => after.routeSignal (signal note) with
      | none => return after
      | some (routed, true) => return routed
      | some (cut, false) => return withSite cut site.crash

def primaryStep? (controller : Controller α σ) : Option (Controller α σ) :=
  controller.watchStep? controller.primary (fun after primary => { after with primary }) .primary

def dependentStep? (controller : Controller α σ) (type : BuiltIn) : Option (Controller α σ) :=
  controller.watchStep? (controller.dependents.get type)
    (fun after site => { after with dependents := after.dependents.set type site })
    fun note => .dependent (.of note) (Resource.metadata note.object)

def siteStep? (controller : Controller α σ) : Option (Controller α σ) :=
  match controller.kinds.findSome? controller.dependentStep? with
  | some after => some after
  | none => controller.primaryStep?

def setWorker (controller : Controller α σ) (place : Nat) (worker : Worker) : Controller α σ :=
  { controller with workers := controller.workers.set place worker }

def pass [DecidableEq σ] (controller : Controller α σ) (key : Key) :
    PassOutcome α × Controller α σ :=
  let outcome := controller.reconciler.pass controller.world key
  (outcome, { controller.absorb outcome.world with
    events := controller.events ++ outcome.events })

def passStep [DecidableEq σ] (controller : Controller α σ) (place : Nat) (key : Key) :
    Controller α σ :=
  match controller.crashes, controller.world.subject? key with
  | message :: rest, some _ =>
      { controller with crashes := rest }.setWorker place
        (.settling key (.error (Worker.crash message)))
  | _, _ =>
      let (outcome, after) := controller.pass key
      match after.crash? [⟨.passDuration, ()⟩] with
      | some ((), after) =>
          after.setWorker place (.settling key (.error (Worker.crash Worker.brokenMetric)))
      | none => after.setWorker place (.settling key outcome.result)

def settleStep (controller : Controller α σ) (place : Nat) (key : Key)
    (result : Except ReconcileError Unit) : Controller α σ :=
  let budget := controller.settings.maxRetries
  match controller.crash? (Retry.crashPoints budget controller.queue key result) with
  | some (queue, after) => { after with queue }.setWorker place (.releasing key)
  | none =>
      let outcome := Retry.handle budget controller.queue key result
      let after := { controller with
        queue := outcome.queue
        reports := controller.reports ++ outcome.report?.toList }
      match outcome.decision with
      | .abandoned _ message => after.setWorker place (.reporting key message)
      | _ => after.setWorker place (.releasing key)

/-- Tells the users of the cluster that a key was given up, if its primary is still there. -/
def reportStep (controller : Controller α σ) (place : Nat) (key : Key) (message : String) :
    Controller α σ :=
  { controller with
    events := controller.events ++
      ((controller.world.objectReference? key).map (Event.abandoned message)).toList }.setWorker
    place (.releasing key)

/-- A step of a worker that gets a key; none if it waits. If that crashes the worker is gone. -/
def getStep? (controller : Controller α σ) (place : Nat) (getter : Queue.Getter Key) :
    Option (Controller α σ) :=
  match controller.crash? (getter.crashPoints controller.queue.shared) with
  | some (shared, after) =>
      some ({ after with queue := { after.queue with shared } }.setWorker place .stopped)
  | none => do
      let (shared, getter) ← getter.step? controller.queue.shared
      return { controller with queue := { controller.queue with shared } }.setWorker place
        (.getting getter)

/-- Releases the key of a worker. If that crashes the worker is gone. -/
def releaseStep (controller : Controller α σ) (place : Nat) (key : Key) : Controller α σ :=
  match controller.crash? (controller.queue.doneCrashPoints key) with
  | some (queue, after) => { after with queue }.setWorker place .stopped
  | none =>
      { controller with queue := controller.queue.done key }.setWorker place (.getting .fresh)

/-- The next step of the worker at a place; none if it waits or has stopped. -/
def workerStep? [DecidableEq σ] (controller : Controller α σ) (place : Nat) :
    Option (Controller α σ) := do
  match ← controller.workers[place]? with
  | .getting (.finished none) => return controller.setWorker place .stopped
  | .getting (.finished (some key)) => return controller.setWorker place (.holding key)
  | .getting getter => controller.getStep? place getter
  | .holding key => return controller.passStep place key
  | .settling key result => return controller.settleStep place key result
  | .reporting key message => return controller.reportStep place key message
  | .releasing key => return controller.releaseStep place key
  | .stopped => none

def places (controller : Controller α σ) : List Nat × List Nat :=
  (List.range controller.workers.length).partition fun place =>
    (controller.workers[place]?.bind Worker.key?).isSome

/-- The next step of any task. A pass that has begun is finished first; then come the watches, the
run itself, and the workers that wait. -/
def step? [DecidableEq σ] (controller : Controller α σ) : Option (Controller α σ) :=
  (controller.places.1.findSome? controller.workerStep?).orElse fun _ =>
    controller.siteStep?.orElse fun _ =>
      controller.phaseStep?.orElse fun _ =>
        controller.places.2.findSome? controller.workerStep?

/-- Runs all tasks until each of them waits, or the fuel is used up. -/
def settle [DecidableEq σ] (controller : Controller α σ) : Nat → Controller α σ
  | 0 => controller
  | fuel + 1 =>
      match controller.step? with
      | some after => after.settle fuel
      | none => controller

end Controller

end ReconcileLoop

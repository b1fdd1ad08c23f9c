import ReconcileLoop.Controller.Basic

namespace ReconcileLoop.Controller

/-! # The passing of time

While all tasks wait, time moves to the next millisecond at which something is due: a delayed add,
or the resync, which adds the keys of all cached primaries.
-/

variable {α σ : Type}

def nextDue? (controller : Controller α σ) : Option Nat :=
  (controller.queue.nextDue?.toList ++
    (controller.nextResync.map Duration.ceilMillis).toList).min?

/-- The first resync after an instant, from one that was due by then. -/
def resyncBeyond (period now due : Nat) : Nat :=
  if period = 0 then due else due + period * ((now - due) / period + 1)

/-- Adds keys until one of the adds crashes, and says whether none did. -/
def addKeys (controller : Controller α σ) : List Key → Controller α σ × Bool
  | [] => (controller, true)
  | key :: rest =>
      match controller.addKey key with
      | (after, true) => after.addKeys rest
      | (after, false) => (after, false)

/-- Looks at all cached primaries again, if it is time. A resync that crashes is the last one. -/
def resync (controller : Controller α σ) : Controller α σ :=
  let now := controller.queue.now
  match controller.nextResync with
  | some due =>
      if due ≤ now then
        let (after, whole) := controller.addKeys controller.primary.ingest.snapshot.keys
        { after with nextResync :=
            if whole then some (resyncBeyond (controller.settings.resync.getD 0) now due)
            else none }
      else controller
  | none => controller

/-- Makes everything happen that is due at a millisecond. A delayed add that crashes is lost, and
the others are made. -/
def fire (controller : Controller α σ) (due : Nat) : Controller α σ :=
  let reached := { controller with queue := controller.queue.reach due }
  let added := (controller.queue.dueItems due).foldl (fun after key => (after.addKey key).1) reached
  added.resync

/-- The time after nothing more is due before a deadline. -/
def rest (controller : Controller α σ) (deadline : Nat) : Controller α σ :=
  { controller with queue := { controller.queue with now := max controller.queue.now deadline } }

variable [Primary α σ] [DecidableEq σ]

/-- Lets time pass until an instant. The first number bounds the instants at which something
happens, the second the steps at each of them. -/
def elapse (deadline fuel : Nat) : Nat → Controller α σ → Controller α σ
  | 0, controller => controller.rest deadline
  | instants + 1, controller =>
      match controller.nextDue? with
      | some due =>
          if Duration.ofMillis due ≤ deadline then
            elapse deadline fuel instants ((controller.fire due).settle fuel)
          else controller.rest deadline
      | none => controller.rest deadline

def sleep (controller : Controller α σ) (millis fuel : Nat) : Controller α σ :=
  let deadline := controller.queue.now + Duration.ofMillis millis
  elapse deadline fuel (millis + 1) controller

end ReconcileLoop.Controller

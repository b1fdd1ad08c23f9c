import ReconcileLoop.Error
import ReconcileLoop.Metrics
import ReconcileLoop.WorkQueue

namespace ReconcileLoop

/-! # Retry decisions

What becomes of a key after a pass: success forgets its failures, a failure that another pass
cannot mend drops it, and any other failure brings it back after a delay, until the budget is used
up and the key is abandoned with a report.
-/

structure FailureReport where
  key : Key
  attempts : Nat
  /-- A permanent failure for the reason of the last attempt. -/
  error : ReconcileError
deriving DecidableEq, Repr, Inhabited

inductive Decision where
  | succeeded
  /-- Not worth another pass; its failures are forgotten. -/
  | dropped
  | requeued (attempt : Nat)
  | abandoned (attempts : Nat) (message : String)
deriving DecidableEq, Repr, Inhabited

namespace Retry

structure Outcome where
  decision : Decision
  queue : WorkQueue Key
  report? : Option FailureReport := none

/-- The number of attempts after which a key is given up; it stays a 32-bit number. -/
def attemptsAfter (requeues : Nat) : Nat := min (requeues + 1) Limiter.Tally.ceiling

def reportOn (key : Key) (requeues : Nat) (error : ReconcileError) : FailureReport :=
  { key, attempts := attemptsAfter requeues
    error := .permanentFailure (attemptsAfter requeues) error }

def handle (budget : Nat) (queue : WorkQueue Key) (key : Key) : Except ReconcileError Unit → Outcome
  | .ok () => { decision := .succeeded, queue := queue.forget key }
  | .error error =>
      if ¬error.isRetryable then { decision := .dropped, queue := queue.forget key }
      else
        let requeues := queue.requeues key
        if requeues < budget then
          { decision := .requeued (requeues + 1), queue := queue.addRateLimited key }
        else
          let report := reportOn key requeues error
          { decision := .abandoned report.attempts report.error.message
            queue := queue.forget key
            report? := some report }

/-- The label of the outcome of a key that is not tried again. -/
def totalLabel? : Decision → Option String
  | .succeeded => some "ok"
  | .abandoned .. => some "abandoned"
  | _ => none

/-- The counters that a decision increments, in order. -/
def counted (controller : String) (result : Except ReconcileError Unit) (decision : Decision) :
    List Series :=
  (match result with
    | .ok () => []
    | .error error =>
        [⟨.passFailures, [("controller", controller), ("error", error.label)]⟩]) ++
  (match totalLabel? decision with
    | some label => [⟨.passes, [("controller", controller), ("result", label)]⟩]
    | none => [])

end Retry

end ReconcileLoop

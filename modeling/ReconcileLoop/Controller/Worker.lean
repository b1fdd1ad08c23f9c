import ReconcileLoop.Reconcile.Pass
import ReconcileLoop.Retry

namespace ReconcileLoop

/-! # Workers

A worker gets a key, makes a pass for it, settles what becomes of the key, reports it if it was
given up, and releases it. A pass that crashes counts as a failure that may pass, and a decision
that crashes is none; the key is released all the same.
-/

/-- Where a worker stands. Everywhere between getting and releasing it holds a key. -/
inductive Worker where
  | getting (getter : Queue.Getter Key)
  | holding (key : Key)
  | settling (key : Key) (result : Except ReconcileError Unit)
  | reporting (key : Key) (message : String)
  | releasing (key : Key)
  | stopped
deriving Inhabited

namespace Worker

def key? : Worker → Option Key
  | holding key => some key
  | settling key _ => some key
  | reporting key _ => some key
  | releasing key => some key
  | _ => none

def isStopped : Worker → Bool
  | stopped => true
  | _ => false

def crash (message : String) : ReconcileError :=
  .store (.transient ("reconcile panicked: " ++ message))

def brokenMetric : String := "metrics blew up"

end Worker

end ReconcileLoop

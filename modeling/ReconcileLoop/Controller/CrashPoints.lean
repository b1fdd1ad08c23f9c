import ReconcileLoop.Controller.Site
import ReconcileLoop.Retry

namespace ReconcileLoop

/-! # Where operations crash

To report a metric may fail. Here it is said of each operation of a controller in which order it
reports metrics, and what it leaves behind if it gets no further than that. An operation that meets
no broken metric does what its own definition says.
-/

namespace Queue

variable {κ : Type} [DecidableEq κ]

/-- An item that is found is out of the queue before the depth is reported. -/
def Getter.crashPoints (shared : Shared κ) : Getter κ → List (CrashPoint (Shared κ))
  | joined ticket? =>
      match shared.queue.take? with
      | some (_, queue) =>
          let unreported := { queue with depth := shared.queue.depth }
          [⟨.queueDepth, { shared with queue := unreported }.leave ticket?⟩]
      | none => []
  | _ => []

end Queue

namespace WorkQueue

variable {κ : Type} [DecidableEq κ]

/-- Puts other items into the queue, without reporting the depth or waking anybody. -/
def withItems (queue : WorkQueue κ) (items : Queue κ) : WorkQueue κ :=
  { queue with shared :=
      { queue.shared with queue := { items with depth := queue.shared.queue.depth } } }

/-- An add makes the item wait before it is counted. If the item can be handed out the depth is
reported next, and only then somebody is woken. -/
def addCrashPoints (queue : WorkQueue κ) (item : κ) : List (CrashPoint (WorkQueue κ)) :=
  let items := queue.shared.queue
  if items.down ∨ item ∈ items.dirty then []
  else
    ⟨.queueAdds, queue.withItems { items with dirty := item :: items.dirty }⟩ ::
      if item ∈ items.processing then []
      else [⟨.queueDepth, queue.withItems (items.add item)⟩]

/-- An item that was added again can be handed out before the depth is reported. -/
def doneCrashPoints (queue : WorkQueue κ) (item : κ) : List (CrashPoint (WorkQueue κ)) :=
  let items := queue.shared.queue
  if item ∈ items.dirty ∧ ¬items.down then [⟨.queueDepth, queue.withItems (items.done item)⟩]
  else []

/-- A failure is counted by the limiter first; if the metric of retries is broken its delay is
lost. -/
def rateLimitedCrashPoints (queue : WorkQueue κ) (item : κ) : List (CrashPoint (WorkQueue κ)) :=
  let (delay, counted) := queue.backOff item
  ⟨.queueRetries, counted⟩ ::
    if delay = 0 then { counted with retries := queue.retries + 1 }.addCrashPoints item else []

end WorkQueue

/-- A decision is reported before it takes effect. -/
def Retry.crashPoints (budget : Nat) (queue : WorkQueue Key) (key : Key) :
    Except ReconcileError Unit → List (CrashPoint (WorkQueue Key))
  | .ok () => [⟨.passes, queue⟩]
  | .error error =>
      ⟨.passFailures, queue⟩ ::
        if ¬error.isRetryable then []
        else if queue.requeues key < budget then queue.rateLimitedCrashPoints key
        else [⟨.passes, queue⟩]

namespace Ingest

variable {α : Type}

/-- A batch is taken in before the metrics of the cache are reported, and published after that. -/
def crashPoints (ingest : Ingest α) : List (CrashPoint Unit) :=
  match ingest.stage, ingest.channel.buffered with
  | .idle, _ :: _ => [⟨.cacheObjects, ()⟩, ⟨.cacheDeltas, ()⟩]
  | _, _ => []

/-- The task of the cache is gone: nothing is taken in any more, and readers keep the view they
have. -/
def crash (ingest : Ingest α) : Ingest α :=
  { ingest with stage := .ended, channel := ingest.channel.closeReceiver }

end Ingest

namespace Site

variable {δ : Type}

/-- The pump reports no metric unless the watch has errors, which that of a store does not have. -/
def crashPoints (site : Site δ) (shutdown : Bool) : List (CrashPoint Unit) :=
  if (site.pumpStep? shutdown).isNone ∧ site.pump.isSome then site.ingest.crashPoints else []

def crash (site : Site δ) : Site δ := { site with ingest := site.ingest.crash }

end Site

end ReconcileLoop

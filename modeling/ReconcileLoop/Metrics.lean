namespace ReconcileLoop

/-! # Metrics

A metric is a family of numbers, one for each choice of its labels: a counter holds a sum, a gauge
the last value set, a histogram how often something was recorded. Only those that were touched
exist. To report a metric may fail, and then the operation that does so crashes at that point.
-/

inductive Metric where
  /-- How many adds made an item wait. -/
  | queueAdds
  /-- How many adds were left to the limiter. -/
  | queueRetries
  /-- How many items can be handed out. -/
  | queueDepth
  /-- How many objects a cache holds. -/
  | cacheObjects
  /-- How many deltas a cache took in. -/
  | cacheDeltas
  /-- How many errors of a watch were passed over. -/
  | watchErrors
  /-- How many signals made work. -/
  | routed
  /-- How many passes were the last of their key for now, by how they ended. -/
  | passes
  /-- How many passes failed, by the cause. -/
  | passFailures
  /-- How long passes took. -/
  | passDuration
deriving DecidableEq, Repr, Inhabited

namespace Metric

def name : Metric → String
  | queueAdds => "queue_adds_total"
  | queueRetries => "queue_retries_total"
  | queueDepth => "queue_depth"
  | cacheObjects => "cache_objects"
  | cacheDeltas => "cache_deltas_total"
  | watchErrors => "watch_errors_total"
  | routed => "router_enqueued_total"
  | passes => "reconcile_total"
  | passFailures => "reconcile_errors_total"
  | passDuration => "reconcile_duration_seconds"

def all : List Metric :=
  [queueAdds, queueRetries, queueDepth, cacheObjects, cacheDeltas, watchErrors, routed, passes,
    passFailures, passDuration]

def ofName? (name : String) : Option Metric := all.find? (·.name = name)

end Metric

/-- One number of a metric, with its labels. -/
structure Series where
  metric : Metric
  labels : List (String × String)
deriving DecidableEq, Repr, Inhabited

/-- The numbers that were touched, each series once. -/
structure Metrics where
  values : List (Series × Nat) := []
deriving Repr, Inhabited

namespace Metrics

def value? (metrics : Metrics) (series : Series) : Option Nat :=
  (metrics.values.find? (·.1 = series)).map (·.2)

def set (metrics : Metrics) (series : Series) (value : Nat) : Metrics :=
  ⟨(series, value) :: metrics.values.filter (·.1 ≠ series)⟩

/-- Adds to the value of a series; one that does not exist starts at zero. -/
def increase (metrics : Metrics) (series : Series) (amount : Nat) : Metrics :=
  metrics.set series ((metrics.value? series).getD 0 + amount)

def increment (metrics : Metrics) (series : Series) : Metrics := metrics.increase series 1

end Metrics

/-- A point of an operation at which it reports a metric, with what is left behind by an operation
that crashes there. -/
structure CrashPoint (β : Type) where
  metric : Metric
  left : β
deriving Inhabited

/-- Where an operation crashes that reports metrics, some of which are broken. -/
def CrashPoint.first? {β : Type} (broken : List Metric) (points : List (CrashPoint β)) :
    Option (CrashPoint β) :=
  points.find? (·.metric ∈ broken)

theorem CrashPoint.first?_nil {β : Type} (points : List (CrashPoint β)) :
    first? [] points = none := by
  simp [first?]

end ReconcileLoop

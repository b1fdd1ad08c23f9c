import ReconcileLoop.Metrics
import ReconcileLoop.Reconcile.Event
import ReconcileLoop.Retry
import ReconcileLoop.Wire.Basic

namespace ReconcileLoop

/-! # Errors, decisions, events and metrics as JSON -/

namespace StoreError

def name : StoreError → String
  | notFound _ => "NotFound"
  | alreadyExists _ => "AlreadyExists"
  | conflict _ => "Conflict"
  | transient _ => "Transient"

def ofJson? (value : Json) : Option StoreError := do
  let what := (value.strAt? "message").getD ""
  match ← value.strAt? "kind" with
  | "NotFound" => some (notFound what)
  | "AlreadyExists" => some (alreadyExists what)
  | "Conflict" => some (conflict what)
  | "Transient" => some (transient what)
  | _ => none

end StoreError

namespace ReconcileError

def name : ReconcileError → String
  | store cause => cause.name
  | malformedKey _ => "MalformedKey"
  | ownershipConflict .. => "OwnershipConflict"
  | permanentFailure .. => "PermanentFailure"

def members (error : ReconcileError) : List (String × Json) :=
  [("error", .str error.name), ("message", .str error.message)]

def toJson (error : ReconcileError) : Json := .ofMembers error.members

/-- Reads an error in which causes are nested at most so deep. -/
def ofJson? (value : Json) : Nat → Option ReconcileError
  | 0 => none
  | depth + 1 => do
      match ← value.strAt? "kind" with
      | "MalformedKey" => some (malformedKey (.other ((value.strAt? "message").getD "")))
      | "OwnershipConflict" =>
          let kind ← value.strAt? "object_kind"
          let ownerKind ← value.strAt? "owner_kind"
          let owner ← value.strAt? "owner"
          some (ownershipConflict kind (← value.keyAt? "key") ownerKind owner)
      | "PermanentFailure" =>
          let attempts ← value.natAt? "attempts"
          some (permanentFailure attempts (← ofJson? (← value.getSome? "source") depth))
      | _ => (StoreError.ofJson? value).map store

end ReconcileError

def deepestCause : Nat := 1000

namespace Decision

def toJson : Decision → Json
  | succeeded => .str "succeeded"
  | dropped => .str "dropped"
  | requeued attempt => .ofMembers [("requeued", .ofNat attempt)]
  | abandoned attempts message =>
      .ofMembers [("abandoned", .ofNat attempts), ("message", .str message)]

end Decision

def FailureReport.toJson (report : FailureReport) : Json :=
  .ofMembers (report.error.members ++
    [("key", report.key.toJson), ("attempts", .ofNat report.attempts),
      ("source", .orNull ReconcileError.toJson report.error.cause?)])

def Severity.name : Severity → String
  | normal => "Normal"
  | warning => "Warning"

def Event.toJson (event : Event) : Json :=
  .ofMembers
    [("type", .str event.severity.name), ("reason", .str event.reason),
      ("message", .str event.message), ("object", event.object.toJson)]

def Series.text (series : Series) : String :=
  let labels := (series.labels.map fun label => label.1 ++ "=" ++ label.2).mergeSort
  series.metric.name ++ "\x7b" ++ ",".intercalate labels ++ "\x7d"

def Metrics.toJson (values : List (Series × Nat)) : Json :=
  .ofMembers (values.map fun entry => (entry.1.text, .ofNat entry.2))

end ReconcileLoop

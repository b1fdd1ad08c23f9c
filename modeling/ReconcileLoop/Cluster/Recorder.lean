import ReconcileLoop.Cluster.Answer
import ReconcileLoop.Reconcile.Event

namespace ReconcileLoop.Cluster

/-! # Recording events in the cluster

An event is written down once. Events that differ from it in nothing but their message make a
series with it: the cluster is told how many there were, and the first message stays.
-/

structure RecordedEvent where
  event : Event
  /-- The name of the record, which tells the records of one object apart. -/
  name : String
  /-- The length of the series; unset for an event of its own. -/
  count : Option Nat := none
deriving DecidableEq, Repr, Inhabited

structure Recorder where
  controller : String
  /-- The records that the cluster has accepted, one of each series. -/
  recorded : List RecordedEvent := []
deriving DecidableEq, Repr, Inhabited

def eventKind : Kind := ⟨"events.k8s.io", "v1", "Event", "events"⟩

def sameSeries (one other : Event) : Bool :=
  one.severity = other.severity && one.reason = other.reason && one.object = other.object

namespace RecordedEvent

def encode (controller : String) (record : RecordedEvent) : Json :=
  let event := record.event
  .ofOptions
    [("apiVersion", some (.str eventKind.apiVersion)), ("kind", some (.str eventKind.name)),
      ("metadata", some (Metadata.toJson { name := some record.name, space := event.object.space })),
      ("action", some (.str "Reconcile")), ("reason", some (.str event.reason)),
      ("note", some (.str event.message)),
      ("type", some (.str (match event.severity with
        | .normal => "Normal"
        | .warning => "Warning"))),
      ("regarding", some event.object.toJson),
      ("reportingController", some (.str controller)),
      ("reportingInstance", some (.str controller)),
      ("series", record.count.map fun count => .ofMembers [("count", .ofNat count)])]

/-- Writes a record: the first one of a series is made, and later ones change it. -/
def request (controller : String) (record : RecordedEvent) : Except StoreError Request :=
  let records := eventKind.address (some (record.event.object.space.getD "default"))
  let body := some (record.encode controller)
  match record.count with
  | none => Request.ofAddress .create records body
  | some _ => Request.ofAddress .patch (records ++ "/" ++ record.name) body

end RecordedEvent

def isAccepted (answer : Answer) : Bool :=
  let form (value : Json) : Option Metadata := do
    guard (value.members?.isSome && (value.get? "apiVersion").all (· = .str eventKind.apiVersion) &&
      (value.get? "kind").all (· = .str eventKind.name))
    return (← value.optional? Metadata.ofJson? "metadata").getD {}
  (answer.read form).isOk

namespace Recorder

/-- The record of an event: the next one of its series, or the first one, which is named after the
object and a stamp. -/
def record (recorder : Recorder) (stamp : String) (event : Event) : RecordedEvent :=
  match recorder.recorded.find? (sameSeries ·.event event) with
  | some held => { held with count := some (held.count.getD 1 + 1) }
  | none => { event, name := event.object.name.getD recorder.controller ++ "." ++ stamp }

/-- The call that records an event; the answer tells what is recorded from then on. -/
def publish (recorder : Recorder) (stamp : String) (event : Event) :
    Except StoreError (Call Recorder) := do
  let record := recorder.record stamp event
  let request ← record.request recorder.controller
  let others := recorder.recorded.filter fun held => !sameSeries held.event event
  let recorded (answer : Answer) : List RecordedEvent :=
    if isAccepted answer then record :: others else recorder.recorded
  return { request, read := fun answer => .ok { recorder with recorded := recorded answer } }

end Recorder

end ReconcileLoop.Cluster

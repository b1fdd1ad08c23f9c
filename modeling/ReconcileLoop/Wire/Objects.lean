import ReconcileLoop.Cache.Index
import ReconcileLoop.Json.Printer
import ReconcileLoop.Route
import ReconcileLoop.Wire.Basic

namespace ReconcileLoop

/-! # Deltas, notifications and signals as JSON -/

variable {α : Type} [Resource α]

namespace Delta

def ofJson? : Json → Option (Delta α)
  | .str "init" => some init
  | .str "init_done" => some initDone
  | .obj [("applied", object)] => (Resource.decode object).map applied
  | .obj [("deleted", object)] => (Resource.decode object).map deleted
  | .obj [("init_applied", object)] => (Resource.decode object).map initApplied
  | _ => none

def toJson : Delta α → Json
  | init => .str "init"
  | initDone => .str "init_done"
  | applied object => .obj [("applied", Resource.encode object)]
  | deleted object => .obj [("deleted", Resource.encode object)]
  | initApplied object => .obj [("init_applied", Resource.encode object)]

def object? : Delta α → Option α
  | applied object => some object
  | deleted object => some object
  | initApplied object => some object
  | _ => none

end Delta

def Delta.owners (deltas : List (Delta α)) : List OwnerReference :=
  (deltas.filterMap object?).flatMap fun object =>
    (Resource.metadata object).ownerReferences.getD []

/-- How an object appears in lists: its namespace, name and version. -/
def Resource.brief (object : α) : Json :=
  let metadata := Resource.metadata object
  .arr
    [.orNull .str metadata.space, .orNull .str metadata.name,
      .orNull .str metadata.resourceVersion]

namespace Notification

def members : Notification α → List (String × Json)
  | added object => [("added", Resource.brief object)]
  | updated old new => [("updated", .arr [Resource.brief old, Resource.brief new])]
  | deleted object => [("deleted", Resource.brief object)]

omit [Resource α] in
/-- The text of a written notification of a deletion. -/
def deletionText? (members : List (String × Json)) : Option String :=
  (Json.lookup "deleted" members).map Json.compact

/-- Written notifications with every run of deletions in the order of their texts: the order in
which a listing drops objects has no meaning. -/
def sortDeletions (notes : List (List (String × Json))) : List (List (String × Json)) :=
  let runs := notes.splitBy fun a b => (deletionText? a).isSome && (deletionText? b).isSome
  (runs.map fun run =>
    run.mergeSort fun a b => (deletionText? a).getD "" ≤ (deletionText? b).getD "").flatten

end Notification

def Snapshot.ownedKeys (snapshot : Snapshot α) (uid : String) : List Key :=
  Key.sort ((snapshot.ownedBy uid).filterMap fun object => (Resource.key object).toOption)

/-- The version of the object that a view holds in the place of one. -/
def Snapshot.versionOf (snapshot : Snapshot α) (object : α) : Option String :=
  ((Resource.key object).toOption.bind snapshot.get?).bind fun held =>
    (Resource.metadata held).resourceVersion

namespace Change

def ofName? : String → Option Change
  | "added" => some added
  | "updated" => some updated
  | "deleted" => some deleted
  | _ => none

end Change

namespace Signal

def ofJson? (value : Json) : Option (Signal α) := do
  match value.getSome? "primary" with
  | some (.obj [("added", object)]) => some (primary (.added (← Resource.decode object)))
  | some (.obj [("deleted", object)]) => some (primary (.deleted (← Resource.decode object)))
  | some (.obj [("updated", .arr [old, new])]) =>
      let old ← Resource.decode old
      some (primary (.updated old (← Resource.decode new)))
  | some _ => none
  | none =>
      let change ← Change.ofName? (← value.strAt? "change")
      let metadata ← value.optional? Metadata.ofJson? "meta"
      some (dependent change (metadata.getD {}))

end Signal

end ReconcileLoop

import ReconcileLoop.Cluster.Answer

namespace ReconcileLoop.Cluster

/-! # Objects in the cluster

The operations of a store as calls of the cluster: what has to be asked, and what the answer means.
Nothing is asked about an object without a name.
-/

def requestTo (kind : Kind) (verb : Verb) (space? : Option String) (name part : String)
    (body : Option Json) : Except StoreError Request :=
  if name = "" then .error (.transient "a name is needed")
  else Request.ofAddress verb (kind.address space? ++ "/" ++ name ++ part) body

def isOutcome (value : Json) : Bool := value.get? "kind" = some (.str "Status")

def outcome? (value : Json) : Option Unit := do
  let status ← value.optional? Json.str? "status"
  guard (status.all fun word => word = "Success" || word = "Failure")
  let _ ← value.defaulted? Json.uint16? 0 0 "code"
  let _ ← value.defaulted? Json.str? "" 0 "message"
  let _ ← value.defaulted? Json.str? "" 0 "reason"
  let details ← value.optional? some "details"
  guard (details.all (Json.isRecord 6))

variable {α : Type} [Resource α]

/-- Looks an object up. That the cluster does not find it is an answer like others. -/
def get (α : Type) [Resource α] (key : Key) : Except StoreError (Call (Option α)) := do
  let request ← requestTo (Resource.kind α) .get key.space? key.name "" none
  return { request, read := fun answer =>
    if answer.refusal?.any (·.reason = "NotFound") then .ok none
    else (answer.read Resource.decode).map some }

def create (object : α) : Except StoreError (Call α) := do
  let space? := (Resource.metadata object).space
  let address := (Resource.kind α).address space?
  let request ← Request.ofAddress .create address (some (Resource.encode object))
  return { request, read := (·.read Resource.decode) }

/-- The change that gives an object the status of another; an unset status is taken away. -/
def statusPatch (object : α) : Json := .obj [("status", Resource.encodedStatus object)]

def updateStatus (object : α) : Except StoreError (Call α) := do
  let metadata := Resource.metadata object
  let request ← requestTo (Resource.kind α) .patch metadata.space (metadata.name.getD "")
    "/status" (some (statusPatch object))
  return { request, read := (·.read Resource.decode) }

/-- Deletes an object. The answer is either a report or the object in its last state. -/
def delete (α : Type) [Resource α] (key : Key) : Except StoreError (Call Unit) := do
  let request ← requestTo (Resource.kind α) .delete key.space? key.name "" (some (.obj []))
  let form (value : Json) : Option Unit :=
    if isOutcome value then outcome? value
    else (Resource.decode (α := α) value).map fun _ => ()
  return { request, read := (·.read form) }

end ReconcileLoop.Cluster

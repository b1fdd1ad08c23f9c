import ReconcileLoop.Object.Metadata

namespace ReconcileLoop

/-! # Kinds of objects

A kind has a name and an address in the cluster. A type of objects is a `Resource` if it belongs to
one kind, carries metadata that can be replaced, and is written to and read from JSON.
-/

/-- A kind of objects and where the cluster serves it. -/
structure Kind where
  /-- Empty for the core group. -/
  group : String
  version : String
  name : String
  plural : String
deriving DecidableEq, Repr, Inhabited

namespace Kind

def apiVersion (kind : Kind) : String :=
  if kind.group = "" then kind.version else kind.group ++ "/" ++ kind.version

end Kind

class Resource (α : Type) where
  kind : Kind
  metadata : α → Metadata
  withMetadata : α → Metadata → α
  encode : α → Json
  decode : Json → Option α
  metadata_withMetadata (object : α) (given : Metadata) :
    metadata (withMetadata object given) = given

attribute [simp] Resource.metadata_withMetadata

namespace Resource

variable {α : Type} [Resource α]

def kindName (α : Type) [Resource α] : String := (Resource.kind α).name

/-- The key under which an object is cached and stored. -/
def key (object : α) : Except KeyFault Key := (metadata object).key

/-- The status that an object is written with, `null` if it has none. -/
def encodedStatus (object : α) : Json := ((encode object).get? "status").getD .null

/-- The object that is written like `current`, but with the status of `given`. -/
def replaceStatus (current given : α) : Option α :=
  match encode current with
  | .obj members => decode (.obj (Json.insertMember "status" (encodedStatus given) members))
  | other => decode other

end Resource

structure ObjectReference where
  apiVersion : Option String := none
  kind : Option String := none
  name : Option String := none
  space : Option String := none
  uid : Option String := none
  resourceVersion : Option String := none
  fieldPath : Option String := none
deriving DecidableEq, Repr, Inhabited

def ObjectReference.to {α : Type} [Resource α] (object : α) : ObjectReference :=
  let metadata := Resource.metadata object
  { apiVersion := some (Resource.kind α).apiVersion
    kind := some (Resource.kind α).name
    name := metadata.name, space := metadata.space, uid := metadata.uid }

def ObjectReference.toJson (reference : ObjectReference) : Json :=
  .ofOptions
    [("apiVersion", reference.apiVersion.map .str), ("fieldPath", reference.fieldPath.map .str),
      ("kind", reference.kind.map .str), ("name", reference.name.map .str),
      ("namespace", reference.space.map .str),
      ("resourceVersion", reference.resourceVersion.map .str), ("uid", reference.uid.map .str)]

/-- Reads a reference; members that are no texts are refused. -/
def ObjectReference.ofJson? (value : Json) : Option ObjectReference := do
  guard value.members?.isSome
  let apiVersion ← value.optional? Json.str? "apiVersion"
  let kind ← value.optional? Json.str? "kind"
  let name ← value.optional? Json.str? "name"
  let space ← value.optional? Json.str? "namespace"
  let uid ← value.optional? Json.str? "uid"
  let resourceVersion ← value.optional? Json.str? "resourceVersion"
  let fieldPath ← value.optional? Json.str? "fieldPath"
  return { apiVersion, kind, name, space, uid, resourceVersion, fieldPath }

end ReconcileLoop

import ReconcileLoop.Error
import ReconcileLoop.Json.Fields

namespace ReconcileLoop

/-! # Object metadata

What every object says about itself beside its content: its name and namespace, the uid that tells
it from later objects of the same name, the version of its last write, its labels and annotations,
and the objects that own it. Metadata is read from and written as JSON; a member that is unset is
not written.

`Metadata` has the members that are looked at here. A cluster keeps more: when an object was made,
its generation, its finalizers, who manages which field. What type metadata has, and how it is written
and read, is therefore left open (`ObjectMeta`); `Metadata` itself is the least such type.
-/

/-- Texts by name, as in labels and annotations. -/
abbrev TextMap := Std.ExtTreeMap String String

namespace TextMap

def toJson (texts : TextMap) : Json := .obj (texts.toList.map fun entry => (entry.1, .str entry.2))

/-- The members of a list that are texts, if all of them are. -/
def ofMembers? : List (String × Json) → Option (List (String × String))
  | [] => some []
  | (name, .str value) :: rest => (ofMembers? rest).map ((name, value) :: ·)
  | _ => none

def ofJson? : Json → Option TextMap
  | .obj members => (ofMembers? members).map fun entries => Std.ExtTreeMap.ofList entries
  | _ => none

end TextMap

/-- A reference to an object that owns the one it stands in. -/
structure OwnerReference where
  apiVersion : String
  kind : String
  name : String
  uid : String
  /-- Whether the owner is the one that manages the object. -/
  controller : Option Bool := none
  blockOwnerDeletion : Option Bool := none
deriving DecidableEq, Repr, Inhabited

namespace Timestamp

def daysIn (year month : Nat) : Nat :=
  if month = 2 then
    if year % 4 = 0 ∧ (year % 100 ≠ 0 ∨ year % 400 = 0) then 29 else 28
  else if month ∈ [4, 6, 9, 11] then 30
  else 31

/-- Whether a text is a time as a cluster writes it. -/
def isWritten (text : String) : Bool :=
  let digits := text.toList
  let number (start length : Nat) : Nat :=
    ((digits.drop start).take length).foldl (fun n digit => 10 * n + (digit.toNat - '0'.toNat)) 0
  let month := number 5 2
  let day := number 8 2
  digits.map (fun digit => if digit.isDigit then '0' else digit) = "0000-00-00T00:00:00Z".toList ∧
    1 ≤ month ∧ month ≤ 12 ∧ 1 ≤ day ∧ day ≤ daysIn (number 0 4) month ∧
    number 11 2 < 24 ∧ number 14 2 < 60 ∧ number 17 2 < 60

end Timestamp

/-- A time as a cluster writes it: the date and the time of day in UTC, to the second. -/
structure Timestamp where
  text : String
  written : Timestamp.isWritten text = true
deriving DecidableEq

structure Metadata where
  name : Option String := none
  space : Option String := none
  uid : Option String := none
  resourceVersion : Option String := none
  labels : Option TextMap := none
  annotations : Option TextMap := none
  ownerReferences : Option (List OwnerReference) := none
  deletionTimestamp : Option Timestamp := none
deriving DecidableEq, Inhabited

namespace Timestamp

def toJson (time : Timestamp) : Json := .str time.text

def ofJson? : Json → Option Timestamp
  | .str text => if written : isWritten text = true then some ⟨text, written⟩ else none
  | _ => none

end Timestamp

namespace OwnerReference

def toJson (reference : OwnerReference) : Json :=
  .ofOptions
    [("apiVersion", some (.str reference.apiVersion)),
      ("blockOwnerDeletion", reference.blockOwnerDeletion.map .bool),
      ("controller", reference.controller.map .bool),
      ("kind", some (.str reference.kind)),
      ("name", some (.str reference.name)),
      ("uid", some (.str reference.uid))]

/-- Reads a reference; an unset text is empty. -/
def ofJson? (value : Json) : Option OwnerReference := do
  guard value.members?.isSome
  let apiVersion ← value.optional? Json.str? "apiVersion"
  let kind ← value.optional? Json.str? "kind"
  let name ← value.optional? Json.str? "name"
  let uid ← value.optional? Json.str? "uid"
  let controller ← value.optional? Json.bool? "controller"
  let blockOwnerDeletion ← value.optional? Json.bool? "blockOwnerDeletion"
  return {
    apiVersion := apiVersion.getD "", kind := kind.getD "", name := name.getD "", uid := uid.getD ""
    controller, blockOwnerDeletion }

def listOfJson? (value : Json) : Option (List OwnerReference) :=
  value.items?.bind fun items => items.mapM ofJson?

end OwnerReference

namespace Metadata

def key (metadata : Metadata) : Except KeyFault Key := Key.ofParts metadata.space metadata.name

def toJson (metadata : Metadata) : Json :=
  .ofOptions
    [("annotations", metadata.annotations.map TextMap.toJson),
      ("deletionTimestamp", metadata.deletionTimestamp.map Timestamp.toJson),
      ("labels", metadata.labels.map TextMap.toJson),
      ("name", metadata.name.map .str),
      ("namespace", metadata.space.map .str),
      ("ownerReferences", metadata.ownerReferences.map fun references =>
        .arr (references.map OwnerReference.toJson)),
      ("resourceVersion", metadata.resourceVersion.map .str),
      ("uid", metadata.uid.map .str)]

def ofJson? (value : Json) : Option Metadata := do
  guard value.members?.isSome
  let name ← value.optional? Json.str? "name"
  let space ← value.optional? Json.str? "namespace"
  let uid ← value.optional? Json.str? "uid"
  let resourceVersion ← value.optional? Json.str? "resourceVersion"
  let labels ← value.optional? TextMap.ofJson? "labels"
  let annotations ← value.optional? TextMap.ofJson? "annotations"
  let ownerReferences ← value.optional? OwnerReference.listOfJson? "ownerReferences"
  let deletionTimestamp ← value.optional? Timestamp.ofJson? "deletionTimestamp"
  return {
    name, space, uid, resourceVersion, labels, annotations, ownerReferences, deletionTimestamp }

end Metadata

/-- A type of metadata, of which the members of `Metadata` are looked at and replaced. -/
class ObjectMeta (μ : Type) where
  view : μ → Metadata
  update : μ → Metadata → μ
  encode : μ → Json
  decode : Json → Option μ
  view_update (metadata : μ) (given : Metadata) : view (update metadata given) = given

attribute [simp] ObjectMeta.view_update

/-- What is replaced is only what is looked at, and metadata reads back as it was written: a time in
it, for one, is no finer than what is written of it. -/
class LawfulObjectMeta (μ : Type) [ObjectMeta μ] : Prop where
  update_view (metadata : μ) : ObjectMeta.update metadata (ObjectMeta.view metadata) = metadata
  update_update (metadata : μ) (first second : Metadata) :
    ObjectMeta.update (ObjectMeta.update metadata first) second = ObjectMeta.update metadata second
  decode_encode (metadata : μ) : ObjectMeta.decode (ObjectMeta.encode metadata) = some metadata

instance : ObjectMeta Metadata where
  view metadata := metadata
  update _ given := given
  encode := Metadata.toJson
  decode := Metadata.ofJson?
  view_update _ _ := rfl

end ReconcileLoop

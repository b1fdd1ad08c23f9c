import ReconcileLoop.Object.Resource

namespace ReconcileLoop

/-! # Ownership

An object has at most one controller: the first of its owner references that says so. Whether an
object belongs to a given owner is decided by the owner's uid, and by kind and name only for an
owner that has none.
-/

namespace Metadata

/-- The reference to the controller, the only one of the owner references that is trusted. -/
def controller? (metadata : Metadata) : Option OwnerReference :=
  (metadata.ownerReferences.getD []).find? (·.controller = some true)

def controllerUid? (metadata : Metadata) : Option String := metadata.controller?.map (·.uid)

/-- The key of the controller, if it is of a kind. Owners live in the namespace of what they own. -/
def ownerKey? (metadata : Metadata) (ownerKind : String) : Option Key :=
  match metadata.controller? with
  | some owner =>
      if owner.kind ≠ ownerKind ∨ owner.name = "" then none else some ⟨metadata.space, owner.name⟩
  | none => none

def isControlledBy {α : Type} [Resource α] (metadata : Metadata) (owner : α) : Bool :=
  match metadata.controller? with
  | none => false
  | some reference =>
      match (Resource.metadata owner).uid with
      | some uid => reference.uid = uid
      | none =>
          reference.kind = Resource.kindName α && some reference.name = (Resource.metadata owner).name

/-- An owner with a uid controls exactly the objects whose controller reference carries it. -/
theorem isControlledBy_iff {α : Type} [Resource α] {metadata : Metadata} {owner : α} {uid : String}
    (identified : (Resource.metadata owner).uid = some uid) :
    metadata.isControlledBy owner = true ↔ metadata.controllerUid? = some uid := by
  unfold isControlledBy controllerUid?
  cases metadata.controller? <;> simp [identified]

end Metadata

/-- The reference by which an object becomes the controller of others. It needs a name and a uid. -/
def OwnerReference.toController? {α : Type} [Resource α] (owner : α) : Option OwnerReference :=
  match (Resource.metadata owner).name, (Resource.metadata owner).uid with
  | some name, some uid =>
      some {
        apiVersion := (Resource.kind α).apiVersion, kind := Resource.kindName α, name, uid
        controller := some true }
  | _, _ => none

end ReconcileLoop

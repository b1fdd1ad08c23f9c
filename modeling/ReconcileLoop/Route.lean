import ReconcileLoop.Metrics
import ReconcileLoop.Object.Ownership
import ReconcileLoop.Template
import ReconcileLoop.Watch.Delta
import ReconcileLoop.WorkQueue

namespace ReconcileLoop

/-! # Routing changes to keys

A new primary, and a changed one whose dependents may change with it, is work. A deleted dependent
is work for the primary that controlled it, which has to make it again. Nothing else is: what a
deleted primary owned is collected by the cluster.
-/

inductive Change where
  | added
  | updated
  | deleted
deriving DecidableEq, Repr, Inhabited

def Change.of {α : Type} : Notification α → Change
  | .added _ => added
  | .updated _ _ => updated
  | .deleted _ => deleted

/-- A notification, with the role of the object that it is about. -/
inductive Signal (α : Type) where
  | primary (notification : Notification α)
  | dependent (change : Change) (metadata : Metadata)

namespace Route

variable {α σ : Type} [Primary α σ]

/-- The key of the primary that has work to do after a signal. An object without a name has no key,
and is dropped. -/
def key? : Signal α → Option Key
  | .primary (.added object) => (Resource.key object).toOption
  | .primary (.updated old new) =>
      if Primary.affectsDependents old new then (Resource.key new).toOption else none
  | .primary (.deleted _) => none
  | .dependent .deleted metadata => metadata.ownerKey? (Resource.kindName α)
  | .dependent _ _ => none

def route (queue : WorkQueue Key) (signal : Signal α) : WorkQueue Key :=
  match key? signal with
  | some key => queue.add key
  | none => queue

/-- The counter of the keys that were added for a kind of primaries. -/
def enqueued (kind : String) : Series := ⟨.routed, [("kind", kind)]⟩

end Route

end ReconcileLoop

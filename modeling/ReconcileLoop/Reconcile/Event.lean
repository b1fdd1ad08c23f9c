import ReconcileLoop.Object.Resource

namespace ReconcileLoop

/-! # Events

What a controller tells the users of the cluster about an object.
-/

inductive Severity where
  | normal
  | warning
deriving DecidableEq, Repr, Inhabited

structure Event where
  severity : Severity
  reason : String
  message : String
  /-- The object that the event is about. -/
  object : ObjectReference
deriving DecidableEq, Repr, Inhabited

namespace Event

/-- The object is as it should be, which took some work. -/
def synced (kind : String) (object : ObjectReference) : Event :=
  ⟨.normal, "Synced", kind ++ " synced successfully", object⟩

/-- The name of a dependent is taken. -/
def nameTaken (kind taken : String) (object : ObjectReference) : Event :=
  ⟨.warning, "ErrResourceExists",
    "Resource " ++ Text.quoted taken ++ " already exists and is not managed by " ++ kind, object⟩

/-- The object was given up. -/
def abandoned (message : String) (object : ObjectReference) : Event :=
  ⟨.warning, "ReconcileFailed", message, object⟩

end Event

end ReconcileLoop

import ReconcileLoop.Object.Resource

namespace ReconcileLoop

/-! # Primaries and their templates

A primary is an object that owns others. What it should own is said by templates, one for each kind
of dependents: a template renders the dependent that a primary asks for, copies what an existing
dependent reports into the status of the primary, and clears that part of the status when there
is nothing to own.
-/

/-- A type of objects that own dependents. The type `σ` is the part of the status that is computed
from the dependents. -/
class Primary (α : Type) (σ : outParam Type) extends Resource α where
  status : α → σ
  setStatus : α → σ → α
  /-- Whether an update of the primary can change what it should own. -/
  affectsDependents (old new : α) : Bool

/-- The cautious answer where nothing else is known: every change of an object may matter. -/
def anyChange {α : Type} [DecidableEq α] (old new : α) : Bool := decide (old ≠ new)

/-- What a primary of type `α` should own of the objects of type `δ`. -/
structure Template (α σ δ : Type) where
  /-- The dependent a primary asks for. Its namespace and its owner are filled in later. -/
  render : α → Option δ
  observe : δ → σ → σ := fun _ status => status
  clear : σ → σ := id

end ReconcileLoop

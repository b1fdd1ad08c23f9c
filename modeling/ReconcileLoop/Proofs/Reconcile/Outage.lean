import ReconcileLoop.Proofs.Reconcile.Converged
import ReconcileLoop.Proofs.Reconcile.Routed
import ReconcileLoop.Proofs.Store.Losses

namespace ReconcileLoop

/-! # Dependents that are taken away

Somebody else removes dependents of a primary from their stores. Each deletion leads back to the key
of the primary, by the owner that the deleted object names (`Outage.Strikes.routed`), and however many
there are and in whatever order they come, that key waits once (`Route.foldl_route`).
-/

variable {α σ δ : Type} [Primary α σ] [Resource δ]

/-- A dependent that was made in a pass for its primary, whatever the primary asked for then. -/
def MadeFor (primary : α) (object : δ) : Prop :=
  ∃ owner rendered, OwnerReference.toController? primary = some owner ∧
    Store.StampOf (Template.adopted primary owner rendered) object

theorem MadeFor.isOwn {primary : α} {object : δ} (made : MadeFor primary object) :
    IsOwn primary object := by
  obtain ⟨owner, rendered, controls, stamp⟩ := made
  refine ⟨?_, stamp.isControlledBy_eq.trans (isControlledBy_adopted controls rendered)⟩
  obtain ⟨fresh, version, rfl⟩ := stamp
  simp [Store.stamped, Template.adopted]

theorem MadeFor.ownerKey?_eq {primary : α} {object : δ} {key : Key} {space : String}
    (made : MadeFor primary object) (own : Resource.key primary = .ok key)
    (spaced : (Resource.metadata primary).space = some space) (nonempty : space ≠ "") :
    (Resource.metadata object).ownerKey? (Resource.kindName α) = some key := by
  obtain ⟨owner, rendered, controls, fresh, version, rfl⟩ := made
  have written := (Resource.key_eq_written_iff own).mpr (by simp [spaced, nonempty])
  rw [Metadata.ownerKey?_of_adopted (by simp [Store.stamped, Template.adopted])
    (by simp [Store.stamped, Template.adopted]) controls own, written]

/-! ## The queue -/

namespace WorkQueue

variable {κ : Type} [DecidableEq κ]

end WorkQueue

/-- Somebody else removes objects of a world from their stores, and the caches take in what the feeds
tell of it, each cut into some batches. -/
structure Outage (world : World α) where
  /-- The keys of what is removed of each kind, one after the other. -/
  gone : (type : BuiltIn) → List Key
  indexes : (type : BuiltIn) → Index (Manifest type)
  batches : (type : BuiltIn) → List (List (Delta (Manifest type)))
  shown (type : BuiltIn) : (indexes type).freeze = (world.dependents.get type).cache
  cut (type : BuiltIn) : (batches type).flatten =
    ((world.dependents.get type).api.store.removeAll (gone type)).2.feed.drop
      (world.dependents.get type).api.store.feed.length

namespace Outage

variable {world : World α} (outage : Outage world)

def access (type : BuiltIn) : Access (Manifest type) where
  cache := ((outage.indexes type).applyAll (outage.batches type)).freeze
  api :=
    { (world.dependents.get type).api with
      store := ((world.dependents.get type).api.store.removeAll (outage.gone type)).2 }

def after : World α where
  primary := world.primary
  dependents := .ofFun outage.access

/-- What the watches of a controller hand on of the removals. -/
def signals (reconciler : Reconciler α σ) : List (Signal α) :=
  reconciler.dependents.flatMap fun dependent =>
    ((outage.indexes dependent.type).notesAll (outage.batches dependent.type)).map fun note =>
      .dependent (.of note) (Resource.metadata note.object)

/-- All that is removed was made for a primary, and there is something. -/
structure Strikes (reconciler : Reconciler α σ) (primary : α) : Prop where
  own : ∀ type, ∀ place ∈ outage.gone type,
    (∃ dependent ∈ reconciler.dependents, dependent.type = type) ∧
      ∃ object, (world.stored type)[place]? = some object ∧ MadeFor primary object
  struck : ∃ type, outage.gone type ≠ []

theorem stored_eq (type : BuiltIn) (place : Key) :
    (outage.after.stored type)[place]? =
      if place ∈ outage.gone type then none else (world.stored type)[place]? := by
  rw [World.stored, Outage.after, PerKind.get_ofFun]
  exact Store.getElem?_removeAll ..

theorem inSync (before : world.InSync) : outage.after.InSync where
  primary := before.primary
  identified := before.identified
  dependents type := by
    rw [Outage.after, PerKind.get_ofFun]
    exact (before.dependents type).takeIn (outage.shown type)
      (Store.removeAll_tells (before.dependents type).keyed _) (outage.cut type)

theorem calm (before : world.Calm) : outage.after.Calm where
  primary := before.primary
  dependents type := by
    rw [Outage.after, PerKind.get_ofFun]
    refine ⟨(before.dependents type).silent, fun op => ?_⟩
    change (((world.dependents.get type).api.store.removeAll _).2.failures).value op = 0
    rw [Store.failures_removeAll]
    exact (before.dependents type).steady op

theorem notes_eq (before : world.InSync) (type : BuiltIn) :
    (outage.indexes type).notesAll (outage.batches type) =
      ((world.dependents.get type).api.store.removeAll (outage.gone type)).1.map .deleted := by
  rw [Index.notesAll_eq, outage.cut, Store.feed_removeAll, List.drop_left]
  refine Index.steps_deleted _ fun object member => ?_
  obtain ⟨place, _, present⟩ := Store.of_mem_removeAll member
  exact ⟨place, (before.dependents type).keyed place object present⟩

variable {outage} {reconciler : Reconciler α σ} {primary : α}

theorem Strikes.routed (strikes : outage.Strikes reconciler primary) (before : world.InSync)
    {key : Key} {space : String} (own : Resource.key primary = .ok key)
    (spaced : (Resource.metadata primary).space = some space) (nonempty : space ≠ "") :
    ∀ signal ∈ outage.signals reconciler, Route.key? signal = some key := by
  intro signal member
  obtain ⟨dependent, _, told⟩ := List.mem_flatMap.mp member
  rw [outage.notes_eq before, List.map_map] at told
  obtain ⟨object, gone, rfl⟩ := List.mem_map.mp told
  obtain ⟨place, inside, present⟩ := Store.of_mem_removeAll gone
  obtain ⟨_, held, there, made⟩ := strikes.own dependent.type place inside
  obtain rfl : object = held := Option.some.inj (present.symm.trans there)
  exact made.ownerKey?_eq own spaced nonempty

end Outage

end ReconcileLoop

import ReconcileLoop.Proofs.Cache.Owners
import ReconcileLoop.Proofs.Reconcile.Spared
import ReconcileLoop.Proofs.Store.Calls

namespace ReconcileLoop

/-! # Caches that have caught up

A cache is in sync with its store if it holds the objects of the store and finds them by their
owners. A cache that was told all changes of a store is (`Store.Written.inSync`), and it is again once
it has absorbed what the feed told of later changes (`Access.InSync.absorb`).
-/

/-- The index behind a snapshot, while no listing is going on. -/
def Snapshot.thaw {α : Type} (snapshot : Snapshot α) : Index α :=
  { epoch := snapshot.epoch, items := snapshot.items, owners := snapshot.owners, synced := true }

namespace Access

variable {δ : Type} [Resource δ]

/-- Every object stands in the cache as it is stored, and nothing else does. -/
structure InSync (access : Access δ) : Prop where
  items : access.cache.items = access.api.store.objects
  owners : access.cache.owners.Covers access.cache.items
  keyed : Keyed access.api.store.objects

/-- Has the cache take in what the feed told since an earlier time, in one batch. -/
def absorb (earlier access : Access δ) : Access δ :=
  let told := access.api.store.feed.drop earlier.api.store.feed.length
  { access with cache := (access.cache.thaw.apply told).1.freeze }

theorem InSync.get?_eq {access : Access δ} (inSync : access.InSync) (key : Key) :
    access.cache.get? key = access.api.store.objects[key]? := by
  rw [Snapshot.get?, inSync.items]

/-- A cache that takes in what its feed told is in sync, however that was cut into batches. -/
theorem InSync.takeIn {access : Access δ} (inSync : access.InSync) {index : Index δ}
    (shown : index.freeze = access.cache) {api : ScriptedStore δ}
    (tells : access.api.store.Tells api.store) {batches : List (List (Delta δ))}
    (cut : batches.flatten = api.store.feed.drop access.api.store.feed.length) :
    ({ cache := (index.applyAll batches).freeze, api } : Access δ).InSync := by
  obtain ⟨told, feed, leads⟩ := tells
  rw [feed, List.drop_left] at cut
  have before : index.items = access.api.store.objects :=
    (congrArg Snapshot.items shown).trans inSync.items
  have covers : index.owners.Covers index.items := by
    have same : index.owners = access.cache.owners := congrArg Snapshot.owners shown
    rw [same, before, ← inSync.items]
    exact inSync.owners
  have keyed : Keyed index.items := by
    rw [before]
    exact inSync.keyed
  have items : (index.applyAll batches).items = api.store.objects := by
    rw [Index.applyAll_eq, cut]
    exact leads index before
  refine ⟨items, ?_, ?_⟩
  · change (index.applyAll batches).owners.Covers (index.applyAll batches).items
    rw [Index.applyAll_eq]
    exact Index.steps_owned covers _
  · change Keyed api.store.objects
    rw [← items, Index.applyAll_eq]
    exact (Index.steps_replay _ batches.flatten keyed).keyed keyed

theorem InSync.absorb {earlier access : Access δ} (inSync : earlier.InSync)
    (cache : access.cache = earlier.cache) (tells : earlier.api.store.Tells access.api.store) :
    (earlier.absorb access).InSync := by
  have shown : access.cache.thaw.freeze = earlier.cache := cache
  exact inSync.takeIn shown tells (List.flatten_singleton ..)

end Access

namespace Store

variable {α : Type} [Resource α]

theorem Written.keyed {store : Store α} (written : store.Written) : Keyed store.objects := by
  induction written with
  | empty => exact Keyed.empty
  | put _ object ih => exact (put_shift _ object).keyed ih
  | remove _ key ih => exact (remove_shift _ key).keyed ih

theorem Written.tells {store : Store α} (written : store.Written) :
    ({} : Store α).Tells store := by
  induction written with
  | empty => exact .refl _
  | put earlier object ih => exact ih.trans ((put_shift _ object).tells earlier.keyed)
  | remove earlier key ih => exact ih.trans ((remove_shift _ key).tells earlier.keyed)

def Identified (items : Std.ExtTreeMap Key α) : Prop :=
  ∀ (key : Key) (object : α), items[key]? = some object →
    ∃ uid, (Resource.metadata object).uid = some uid

theorem Identified.insert {items : Std.ExtTreeMap Key α} (identified : Identified items)
    {object written : α} (stamp : StampOf object written) (key : Key) :
    Identified (items.insert key written) := by
  intro place held present
  rw [Std.ExtTreeMap.getElem?_insert] at present
  split at present
  · cases present
    obtain ⟨fresh, version, rfl⟩ := stamp
    rw [Resource.metadata_withMetadata]
    exact ⟨_, rfl⟩
  · exact identified place held present

theorem Identified.erase {items : Std.ExtTreeMap Key α} (identified : Identified items)
    (key : Key) : Identified (items.erase key) := by
  intro place held present
  rw [Std.ExtTreeMap.getElem?_erase] at present
  split at present
  · contradiction
  · exact identified place held present

theorem Written.identified {store : Store α} (written : store.Written) :
    Identified store.objects := by
  induction written with
  | empty =>
      intro key object present
      simp at present
  | @put store earlier object ih =>
      unfold Store.put
      cases keyOf object with
      | error error => exact ih
      | ok key => exact ih.insert (store.stampOf_stamp object) key
  | @remove store earlier key ih =>
      unfold Store.remove
      cases store.objects[key]? with
      | none => exact ih
      | some gone => exact ih.erase key

end Store

theorem Store.Written.steady {δ : Type} [Resource δ] {store : Store δ} (written : store.Written)
    (op : Op) : store.failures.value op = 0 := by
  induction written with
  | empty => cases op <;> rfl
  | @put store _ object ih =>
      unfold Store.put
      cases keyOf object <;> exact ih
  | @remove store _ key ih =>
      unfold Store.remove
      cases store.objects[key]? <;> exact ih

/-- Access to a store, with a cache that was told all its changes. -/
def Access.caughtUp {δ : Type} [Resource δ] (store : Store δ) : Access δ where
  cache := (({} : Index δ).apply store.feed).1.freeze
  api := { store }

theorem Store.Written.inSync {δ : Type} [Resource δ] {store : Store δ} (written : store.Written) :
    (Access.caughtUp store).InSync := by
  obtain ⟨changes, feed, leads⟩ := written.tells
  have whole : store.feed = changes := by simpa using feed
  refine ⟨?_, Index.steps_owned OwnerIndex.Covers.empty store.feed, written.keyed⟩
  change (({} : Index δ).steps store.feed).1.items = store.objects
  rw [whole]
  exact leads {} rfl

theorem Store.Written.calm {δ : Type} [Resource δ] {store : Store δ} (written : store.Written) :
    (Access.caughtUp store).api.Calm :=
  ⟨fun op => by cases op <;> rfl, written.steady⟩

namespace World

variable {α : Type} [Resource α]

/-- All caches have caught up, and every primary was given a uid when it was written. -/
structure InSync (world : World α) : Prop where
  primary : world.primary.InSync
  identified : Store.Identified world.primary.api.store.objects
  dependents (type : BuiltIn) : (world.dependents.get type).InSync

def absorb (earlier world : World α) : World α where
  primary := earlier.primary.absorb world.primary
  dependents := .ofFun fun type =>
    (earlier.dependents.get type).absorb (world.dependents.get type)

structure Calm (world : World α) : Prop where
  primary : world.primary.api.Calm
  dependents (type : BuiltIn) : (world.dependents.get type).api.Calm

def caughtUp (primaries : Store α) (dependents : PerKind fun type => Store (Manifest type)) :
    World α where
  primary := .caughtUp primaries
  dependents := .ofFun fun type => .caughtUp (dependents.get type)

theorem caughtUp_inSync {primaries : Store α}
    {dependents : PerKind fun type => Store (Manifest type)} (written : primaries.Written)
    (others : ∀ type, (dependents.get type).Written) : (caughtUp primaries dependents).InSync where
  primary := written.inSync
  identified := written.identified
  dependents type := by
    rw [caughtUp, PerKind.get_ofFun]
    exact (others type).inSync

theorem caughtUp_calm {primaries : Store α}
    {dependents : PerKind fun type => Store (Manifest type)} (written : primaries.Written)
    (others : ∀ type, (dependents.get type).Written) : (caughtUp primaries dependents).Calm where
  primary := written.calm
  dependents type := by
    rw [caughtUp, PerKind.get_ofFun]
    exact (others type).calm

def stored (world : World α) (type : BuiltIn) : Std.ExtTreeMap Key (Manifest type) :=
  (world.dependents.get type).api.store.objects

end World

end ReconcileLoop

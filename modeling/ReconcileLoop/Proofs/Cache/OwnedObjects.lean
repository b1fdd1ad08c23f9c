import Mathlib.Data.List.Nodup
import ReconcileLoop.Object.Manifest
import ReconcileLoop.Proofs.Cache.Owners

namespace ReconcileLoop

/-! # What an owner finds of its own

Whatever a cache was told, the objects that it gives out for an owner are those whose controller the
owner is, each of them once, and the index by owner has no entry without a key. The controller of an
object is said here on the list of its owner references, apart from how it is looked up.
-/

namespace Metadata

/-- The first of the owner references that is marked as the controller carries this uid. -/
def HasController (metadata : Metadata) (uid : String) : Prop :=
  ∃ before reference after, metadata.ownerReferences = some (before ++ reference :: after) ∧
    (∀ earlier ∈ before, earlier.controller ≠ some true) ∧
    reference.controller = some true ∧ reference.uid = uid

theorem controllerUid?_eq_some_iff {metadata : Metadata} {uid : String} :
    metadata.controllerUid? = some uid ↔ metadata.HasController uid := by
  unfold controllerUid? controller? HasController
  constructor
  · intro found
    obtain ⟨reference, first, carries⟩ := Option.map_eq_some_iff.mp found
    obtain ⟨marked, before, after, split, unmarked⟩ := List.find?_eq_some_iff_append.mp first
    refine ⟨before, reference, after, ?_, ?_, by simpa using marked, carries⟩
    · cases listed : metadata.ownerReferences with
      | none => simp [listed] at split
      | some references => rw [← split, listed, Option.getD_some]
    · intro earlier member
      simpa using unmarked earlier member
  · rintro ⟨before, reference, after, listed, unmarked, marked, carries⟩
    refine Option.map_eq_some_iff.mpr ⟨reference, ?_, carries⟩
    rw [listed, Option.getD_some]
    refine List.find?_eq_some_iff_append.mpr ⟨by simpa using marked, before, after, rfl, ?_⟩
    intro earlier member
    simpa using unmarked earlier member

end Metadata

namespace OwnerIndex

/-- Every uid with an entry has a key under it. -/
def Trim (owners : OwnerIndex) : Prop :=
  ∀ (uid : String) (under : Std.ExtTreeSet Key), owners[uid]? = some under → ∃ key, key ∈ under

theorem Trim.empty : Trim ∅ := by
  intro uid under found
  simp at found

theorem Trim.insert {owners : OwnerIndex} (trim : owners.Trim) (own : String)
    {under : Std.ExtTreeSet Key} (used : ∃ key, key ∈ under) : Trim (owners.insert own under) := by
  intro uid given found
  rw [Std.ExtTreeMap.getElem?_insert] at found
  split at found
  · cases found
    exact used
  · exact trim uid given found

theorem Trim.enter {owners : OwnerIndex} (trim : owners.Trim) (uid? : Option String) (key : Key) :
    (owners.enter uid? key).Trim := by
  cases uid? with
  | none => exact trim
  | some own => exact trim.insert own ⟨key, Std.ExtTreeSet.mem_insert_self⟩

theorem Trim.strike {owners : OwnerIndex} (trim : owners.Trim) (uid? : Option String)
    (key : Key) : (owners.strike uid? key).Trim := by
  cases uid? with
  | none => exact trim
  | some own =>
      simp only [OwnerIndex.strike]
      split
      · intro uid given found
        rw [Std.ExtTreeMap.getElem?_erase] at found
        split at found
        · contradiction
        · exact trim uid given found
      · next left =>
          apply trim.insert own
          simpa [Std.ExtTreeSet.isEmpty_iff, Std.ExtTreeSet.eq_empty_iff_forall_not_mem] using left

end OwnerIndex

variable {α : Type} [Resource α]

namespace Index

theorem upsert_trim {index : Index α} (trim : index.owners.Trim) (object : α) :
    (index.upsert object).1.owners.Trim := by
  unfold upsert
  cases Resource.key object with
  | error fault => exact trim
  | ok key =>
      have entered := trim.enter (ownerUid? object) key
      simp only [put]
      cases index.items[key]? with
      | none => exact entered
      | some old =>
          simp only
          split
          · exact entered
          · exact (entered.strike _ key).enter _ key

theorem remove_trim {index : Index α} (trim : index.owners.Trim) (key : Key) :
    (index.remove key).owners.Trim := by
  unfold remove
  cases index.items[key]? with
  | none => exact trim
  | some gone => exact trim.strike _ key

theorem removeAll_trim {index : Index α} (trim : index.owners.Trim) (keys : List Key) :
    (index.removeAll keys).1.owners.Trim := by
  induction keys generalizing index with
  | nil => exact trim
  | cons key rest ih =>
      rw [removeAll_cons]
      exact ih (remove_trim trim key)

theorem step_trim {index : Index α} (trim : index.owners.Trim) (delta : Delta α) :
    (index.step delta).1.owners.Trim := by
  cases delta with
  | applied object => exact upsert_trim trim object
  | initApplied object =>
      have seen : (index.see object).owners.Trim := by
        unfold see
        split <;> exact trim
      exact upsert_trim seen object
  | deleted object =>
      simp only [step]
      cases Resource.key object with
      | ok key => exact remove_trim trim key
      | error fault => exact trim
  | init => exact trim
  | initDone =>
      simp only [step, closeListing]
      cases index.listing with
      | none => exact trim
      | some seen => exact @removeAll_trim _ _ { index with listing := none } trim _

theorem steps_trim {index : Index α} (trim : index.owners.Trim) (deltas : List (Delta α)) :
    (index.steps deltas).1.owners.Trim := by
  induction deltas generalizing index with
  | nil => exact trim
  | cons delta rest ih => exact ih (step_trim trim delta)

end Index

namespace Snapshot

/-- Different keys hold different objects, as each object says itself where it belongs. -/
theorem nodup_ownedBy {snapshot : Snapshot α} (keyed : Keyed snapshot.items) (uid : String) :
    (snapshot.ownedBy uid).Nodup := by
  have distinct : (snapshot.owners.keys uid).toList.Nodup := by
    refine Std.ExtTreeSet.distinct_toList.imp ?_
    rintro first second differ rfl
    exact differ Std.ReflCmp.compare_self
  refine distinct.filterMap ?_
  intro first second object one other
  have own := keyed first object one
  rw [keyed second object other] at own
  exact (Except.ok.inj own).symm

theorem mem_ownedBy_iff {snapshot : Snapshot α} (covers : snapshot.owners.Covers snapshot.items)
    (uid : String) (object : α) : object ∈ snapshot.ownedBy uid ↔
      (∃ key, snapshot.get? key = some object) ∧ (Resource.metadata object).HasController uid := by
  rw [mem_ownedBy covers, exists_and_right, ← Metadata.controllerUid?_eq_some_iff]
  rfl

theorem ownedBy_ne_nil {snapshot : Snapshot α} (covers : snapshot.owners.Covers snapshot.items)
    (trim : snapshot.owners.Trim) {uid : String} (entered : uid ∈ snapshot.owners) :
    snapshot.ownedBy uid ≠ [] := by
  obtain ⟨under, found⟩ := Option.isSome_iff_exists.mp
    (Std.ExtTreeMap.mem_iff_isSome_getElem?.mp entered)
  obtain ⟨key, member⟩ := trim uid under found
  obtain ⟨object, cached, own⟩ :=
    (covers uid key).mp (by simpa [OwnerIndex.keys, found] using member)
  exact List.ne_nil_of_mem ((mem_ownedBy covers).mpr ⟨key, cached, own⟩)

end Snapshot

/-- After any batches of deltas, a cache gives out for a uid exactly the cached objects whose
controller has that uid, each once; so it gives out for an owner exactly what passes for controlled
by it. Every object is cached under its own key, and every uid in the index owns something. -/
theorem Index.ownedBy_exact (batches : List (List (Delta α))) :
    let snapshot := (({} : Index α).applyAll batches).freeze
    (∀ uid, (snapshot.ownedBy uid).Nodup ∧
      ∀ object, object ∈ snapshot.ownedBy uid ↔
        (∃ key, snapshot.get? key = some object) ∧
          (Resource.metadata object).HasController uid) ∧
    (∀ (ω : Type) [Resource ω] (owner : ω) (uid : String),
      (Resource.metadata owner).uid = some uid →
      ∀ key object, snapshot.get? key = some object →
        (object ∈ snapshot.ownedBy uid ↔
          (Resource.metadata object).isControlledBy owner = true)) ∧
    (∀ key object, snapshot.get? key = some object → Resource.key object = .ok key) ∧
    ∀ uid, uid ∈ snapshot.owners → snapshot.ownedBy uid ≠ [] := by
  intro snapshot
  have whole : snapshot = ((({} : Index α).steps batches.flatten).1.withEpoch _).freeze :=
    congrArg Index.freeze (Index.applyAll_eq {} batches)
  have covers : snapshot.owners.Covers snapshot.items := by
    rw [whole]
    exact Index.steps_owned OwnerIndex.Covers.empty batches.flatten
  have keyed : Keyed snapshot.items := by
    rw [whole]
    exact (({} : Index α).steps_replay batches.flatten Keyed.empty).keyed Keyed.empty
  have trim : snapshot.owners.Trim := by
    rw [whole]
    exact @Index.steps_trim _ _ {} OwnerIndex.Trim.empty batches.flatten
  have exactly := Snapshot.mem_ownedBy_iff covers
  refine ⟨fun uid => ⟨Snapshot.nodup_ownedBy keyed uid, exactly uid⟩, ?_, keyed,
    fun uid entered => Snapshot.ownedBy_ne_nil covers trim entered⟩
  intro ω _ owner uid identified key object cached
  rw [exactly, Metadata.isControlledBy_iff identified, Metadata.controllerUid?_eq_some_iff]
  exact and_iff_right ⟨key, cached⟩

/-- An ingress changes hands between two services; the reference it had first was never to its
controller. -/
theorem Index.ownedBy_exact_handedOver :
    let reference (uid : String) (controller : Option Bool) : OwnerReference :=
      { apiVersion := "v1", kind := "Service", name := "web", uid, controller }
    let ingress (references : List OwnerReference) : Ingress :=
      { metadata := { name := some "web", ownerReferences := some references } }
    let before := ingress [reference "svc-0" none, reference "svc-1" (some true)]
    let after := ingress [reference "svc-0" none, reference "svc-2" (some true)]
    let snapshot := (({} : Index Ingress).applyAll
      [[.init, .initApplied before], [.initDone, .applied after, .applied {}]]).freeze
    let owner : Service := { metadata := { name := some "web", uid := some "svc-2" } }
    snapshot.get? ⟨none, "web"⟩ = some after ∧
      (Resource.metadata owner).uid = some "svc-2" ∧ after ∈ snapshot.ownedBy "svc-2" ∧
      "svc-1" ∉ snapshot.owners := by
  intro reference ingress before after snapshot owner
  obtain ⟨_, owned, _, used⟩ := ownedBy_exact
    [[.init, .initApplied before], [.initDone, .applied after, .applied {}]]
  have cached : snapshot.get? ⟨none, "web"⟩ = some after := by decide +kernel
  refine ⟨cached, rfl, (owned Service owner "svc-2" rfl _ after cached).mpr rfl, ?_⟩
  intro entered
  exact used "svc-1" entered (by decide +kernel)

end ReconcileLoop

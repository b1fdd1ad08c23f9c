import ReconcileLoop.Proofs.Cache.Listing

namespace ReconcileLoop

/-! # The index by owner

Under the uid of an owner stand the keys of exactly the objects that it controls. That is so of the
empty index and stays so with every delta (`Index.steps_owned`), so whoever asks a cache for the
objects of an owner is given these objects and no others (`Snapshot.mem_ownedBy`).
-/

namespace OwnerIndex

variable {owners : OwnerIndex}

theorem mem_keys_enter {uid? : Option String} {place key : Key} {uid : String} :
    key ∈ (owners.enter uid? place).keys uid ↔
      uid? = some uid ∧ place = key ∨ key ∈ owners.keys uid := by
  cases uid? with
  | none => simp [enter]
  | some own =>
      simp only [enter, keys, Std.ExtTreeMap.getElem?_insert, Option.some.injEq]
      by_cases same : own = uid
      · subst same
        simp
      · simp [same]

theorem mem_keys_strike {uid? : Option String} {place key : Key} {uid : String} :
    key ∈ (owners.strike uid? place).keys uid ↔
      key ∈ owners.keys uid ∧ ¬(uid? = some uid ∧ place = key) := by
  cases uid? with
  | none => simp [strike]
  | some own =>
      have left : key ∈ (owners.keys own).erase place ↔ key ∈ owners.keys own ∧ place ≠ key := by
        simp [and_comm]
      simp only [strike, Option.some.injEq]
      by_cases same : own = uid
      · subst same
        split
        · next empty =>
            have nothing : key ∉ (owners.keys own).erase place := by
              rw [Std.ExtTreeSet.isEmpty_iff.mp empty]
              exact Std.ExtTreeSet.not_mem_empty
            simp only [true_and]
            rw [← left]
            simpa [keys] using nothing
        · simpa [keys] using left
      · split <;>
          simp [keys, same, Std.ExtTreeMap.getElem?_erase, Std.ExtTreeMap.getElem?_insert]

end OwnerIndex

variable {α : Type} [Resource α]

/-- Every key stands under the uid of the controller of its object, and nowhere else. -/
def OwnerIndex.Covers (owners : OwnerIndex) (items : Std.ExtTreeMap Key α) : Prop :=
  ∀ uid key, key ∈ owners.keys uid ↔
    ∃ object, items[key]? = some object ∧ Index.ownerUid? object = some uid

theorem OwnerIndex.Covers.empty : OwnerIndex.Covers ∅ (∅ : Std.ExtTreeMap Key α) := by
  intro uid key
  simp [keys]

theorem OwnerIndex.Covers.insert {owners : OwnerIndex} {items : Std.ExtTreeMap Key α}
    (covers : owners.Covers items) {key : Key} (object : α) {next : OwnerIndex}
    (entered : ∀ uid place, place ∈ next.keys uid ↔
      Index.ownerUid? object = some uid ∧ key = place ∨
        place ∈ owners.keys uid ∧ key ≠ place) :
    next.Covers (items.insert key object) := by
  intro uid place
  rw [entered, covers uid place, Std.ExtTreeMap.getElem?_insert]
  by_cases same : key = place
  · subst same
    simp
  · simp [same]

namespace Index

theorem put_owned {index : Index α} (covers : index.owners.Covers index.items) (key : Key)
    (object : α) : (index.put key object).1.owners.Covers (index.put key object).1.items := by
  rw [items_put]
  refine covers.insert object fun uid place => ?_
  unfold put
  cases present : index.items[key]? with
  | none =>
      have absent : key ∉ index.owners.keys uid := by
        rw [covers uid key]
        simp [present]
      simp only [OwnerIndex.mem_keys_enter]
      by_cases same : key = place
      · subst same
        simp [absent]
      · simp [same]
  | some old =>
      have here : key ∈ index.owners.keys uid ↔ ownerUid? old = some uid := by
        rw [covers uid key]
        simp [present]
      by_cases same : ownerUid? old = ownerUid? object
      · simp only [same, if_true, OwnerIndex.mem_keys_enter]
        by_cases own : key = place
        · subst own
          simp [here, same]
        · simp [own]
      · simp only [same, if_false, OwnerIndex.mem_keys_enter, OwnerIndex.mem_keys_strike]
        by_cases own : key = place
        · subst own
          by_cases new : ownerUid? object = some uid
          · simp [new]
          · simp [new, here]
        · simp [own]

theorem upsert_owned {index : Index α} (covers : index.owners.Covers index.items) (object : α) :
    (index.upsert object).1.owners.Covers (index.upsert object).1.items := by
  unfold upsert
  cases Resource.key object with
  | ok key => exact put_owned covers key object
  | error fault => exact covers

theorem remove_owned {index : Index α} (covers : index.owners.Covers index.items) (key : Key) :
    (index.remove key).owners.Covers (index.remove key).items := by
  intro uid place
  rw [items_remove, Std.ExtTreeMap.getElem?_erase]
  unfold remove
  cases present : index.items[key]? with
  | none =>
      by_cases own : key = place
      · subst own
        simp [covers uid key, present]
      · simpa [own] using covers uid place
  | some gone =>
      simp only [OwnerIndex.mem_keys_strike, covers uid place]
      by_cases own : key = place
      · subst own
        simp [present]
      · simp [own]

theorem removeAll_owned {index : Index α} (covers : index.owners.Covers index.items)
    (keys : List Key) :
    (index.removeAll keys).1.owners.Covers (index.removeAll keys).1.items := by
  induction keys generalizing index with
  | nil => exact covers
  | cons key rest ih =>
      rw [removeAll_cons]
      exact ih (remove_owned covers key)

theorem step_owned {index : Index α} (covers : index.owners.Covers index.items) (delta : Delta α) :
    (index.step delta).1.owners.Covers (index.step delta).1.items := by
  cases delta with
  | applied object => exact upsert_owned covers object
  | initApplied object =>
      have seen : (index.see object).owners.Covers (index.see object).items := by
        unfold see
        split <;> exact covers
      exact upsert_owned seen object
  | deleted object =>
      cases own : Resource.key object with
      | ok key =>
          simp only [step, own]
          exact remove_owned covers key
      | error fault =>
          simp only [step, own]
          exact covers
  | init => exact covers
  | initDone =>
      unfold step closeListing
      cases index.listing with
      | none => exact covers
      | some seen => exact @removeAll_owned _ _ { index with listing := none } covers _

/-- However an index came about, its owner index is that of its objects. -/
theorem steps_owned {index : Index α} (covers : index.owners.Covers index.items)
    (deltas : List (Delta α)) :
    (index.steps deltas).1.owners.Covers (index.steps deltas).1.items := by
  induction deltas generalizing index with
  | nil => exact covers
  | cons delta rest ih => exact ih (step_owned covers delta)

end Index

theorem Snapshot.mem_ownedBy {snapshot : Snapshot α}
    (covers : snapshot.owners.Covers snapshot.items) {uid : String} {object : α} :
    object ∈ snapshot.ownedBy uid ↔
      ∃ key : Key, snapshot.items[key]? = some object ∧
        Index.ownerUid? object = some uid := by
  simp only [ownedBy, List.mem_filterMap, Std.ExtTreeSet.mem_toList, covers uid]
  constructor
  · rintro ⟨key, ⟨held, present, own⟩, found⟩
    have same : held = object := Option.some.inj (present.symm.trans found)
    exact ⟨key, found, same ▸ own⟩
  · rintro ⟨key, found, own⟩
    exact ⟨key, ⟨object, found, own⟩, found⟩

end ReconcileLoop

import ReconcileLoop.Proofs.Cache.Replay

namespace ReconcileLoop

/-! # What listings and changes leave in a cache

A listing makes an index hold exactly the objects that were listed, whatever it held before
(`Index.items_steps_listing`), and a single change is taken over as it is. What an index holds it was
shown, and how the deltas are cut into batches does not matter (`Index.applyAll_eq`).
-/

variable {α : Type}

namespace Delta

def shown? : Delta α → Option α
  | .applied object => some object
  | .initApplied object => some object
  | _ => none

/-- The deltas by which some objects are listed. -/
def listing (objects : List α) : List (Delta α) :=
  .init :: objects.map .initApplied ++ [.initDone]

end Delta

namespace Index

variable [Resource α]

theorem items_put (index : Index α) (key : Key) (object : α) :
    (index.put key object).1.items = index.items.insert key object := by
  unfold put
  cases index.items[key]? <;> rfl

theorem listing_put (index : Index α) (key : Key) (object : α) :
    (index.put key object).1.listing = index.listing := by
  unfold put
  cases index.items[key]? <;> rfl

theorem items_upsert (index : Index α) {key : Key} {object : α}
    (own : Resource.key object = .ok key) :
    (index.upsert object).1.items = index.items.insert key object := by
  simp only [upsert, own, items_put]

theorem listing_upsert (index : Index α) {key : Key} {object : α}
    (own : Resource.key object = .ok key) :
    (index.upsert object).1.listing = index.listing := by
  simp only [upsert, own, listing_put]

theorem getElem?_removeAll (index : Index α) (keys : List Key) (key : Key) :
    (index.removeAll keys).1.items[key]? = if key ∈ keys then none else index.items[key]? := by
  induction keys generalizing index with
  | nil => rfl
  | cons gone rest ih =>
      rw [removeAll_cons, ih, items_remove, Std.ExtTreeMap.getElem?_erase]
      by_cases same : gone = key
      · simp [same]
      · simp [same, Ne.symm same]

theorem getElem?_closeListing (index : Index α) {seen : Std.ExtTreeSet Key}
    (opened : index.listing = some seen) (key : Key) :
    index.closeListing.1.items[key]? = if key ∈ seen then index.items[key]? else none := by
  simp only [closeListing, opened]
  rw [getElem?_removeAll]
  have unlisted : key ∈ index.unlisted seen ↔ key ∈ index.items ∧ key ∉ seen := by
    simp [Index.unlisted]
  by_cases named : key ∈ seen
  · rw [if_neg (by simp [unlisted, named]), if_pos named]
  · rw [if_neg named]
    by_cases held : key ∈ index.items
    · rw [if_pos (unlisted.mpr ⟨held, named⟩)]
    · have absent : index.items[key]? = none := by simpa using held
      rw [absent, ite_self]

theorem getElem?_step {index : Index α} {delta : Delta α} {key : Key} {object : α}
    (held : (index.step delta).1.items[key]? = some object) :
    index.items[key]? = some object ∨
      delta.shown? = some object ∧ Resource.key object = .ok key := by
  have upsert {base : Index α} {given : α} (same : base.items = index.items)
      (held : (base.upsert given).1.items[key]? = some object) :
      index.items[key]? = some object ∨ some given = some object ∧ Resource.key object = .ok key := by
    cases own : Resource.key given with
    | error fault =>
        simp only [Index.upsert, own, same] at held
        exact .inl held
    | ok place =>
        rw [base.items_upsert own, same, Std.ExtTreeMap.getElem?_insert] at held
        split at held
        · next here =>
            cases held
            have same : place = key := Std.LawfulEqOrd.eq_of_compare here
            exact .inr ⟨rfl, same ▸ own⟩
        · exact .inl held
  cases delta with
  | applied given => exact upsert rfl held
  | initApplied given => exact upsert (index.items_see given) held
  | deleted gone =>
      simp only [step] at held
      split at held
      · rw [items_remove, Std.ExtTreeMap.getElem?_erase] at held
        split at held
        · contradiction
        · exact .inl held
      · exact .inl held
  | init => exact .inl held
  | initDone =>
      simp only [step] at held
      cases opened : index.listing with
      | none =>
          simp only [closeListing, opened] at held
          exact .inl held
      | some seen =>
          rw [index.getElem?_closeListing opened] at held
          split at held
          · exact .inl held
          · contradiction

theorem items_step_applied (index : Index α) {key : Key} {object : α}
    (own : Resource.key object = .ok key) :
    (index.step (.applied object)).1.items = index.items.insert key object :=
  index.items_upsert own

theorem items_step_deleted (index : Index α) {key : Key} {object : α}
    (own : Resource.key object = .ok key) :
    (index.step (.deleted object)).1.items = index.items.erase key := by
  simp only [step, own, items_remove]

/-- Inside a listing of some objects: of those that were named so far, the index holds the ones
that are listed. -/
structure Lists (index : Index α) (objects : Std.ExtTreeMap Key α) (seen : Std.ExtTreeSet Key) :
    Prop where
  opened : index.listing = some seen
  agrees (key : Key) (named : key ∈ seen) : index.items[key]? = objects[key]?
  known (key : Key) (named : key ∈ seen) : key ∈ objects

theorem Lists.step {index : Index α} {objects : Std.ExtTreeMap Key α} {seen : Std.ExtTreeSet Key}
    (lists : index.Lists objects seen) {key : Key} {object : α}
    (own : Resource.key object = .ok key) (present : objects[key]? = some object) :
    (index.step (.initApplied object)).1.Lists objects (seen.insert key) := by
  have seeing : (index.see object).listing = some (seen.insert key) := by
    simp only [see, lists.opened, own]
  refine ⟨?_, fun place named => ?_, fun place named => ?_⟩
  · exact ((index.see object).listing_upsert own).trans seeing
  · have items : (index.step (.initApplied object)).1.items = index.items.insert key object := by
      rw [← items_see index object]
      exact (index.see object).items_upsert own
    rw [items, Std.ExtTreeMap.getElem?_insert]
    by_cases same : key = place
    · subst same
      simp [present]
    · have before : place ∈ seen := by simpa [same] using named
      simpa [same] using lists.agrees place before
  · by_cases same : key = place
    · subst same
      exact Std.ExtTreeMap.mem_iff_isSome_getElem?.mpr (by simp [present])
    · exact lists.known place (by simpa [same] using named)

theorem Lists.steps {index : Index α} {objects : Std.ExtTreeMap Key α} {seen : Std.ExtTreeSet Key}
    (lists : index.Lists objects seen) (named : List α)
    (listed : ∀ object ∈ named, ∃ key, Resource.key object = .ok key ∧
      objects[key]? = some object) :
    ∃ all, (index.steps (named.map .initApplied)).1.Lists objects all ∧
      (∀ key ∈ seen, key ∈ all) ∧
      ∀ object ∈ named, ∀ key, Resource.key object = .ok key → key ∈ all := by
  induction named generalizing index seen with
  | nil => exact ⟨seen, lists, fun _ before => before, by simp⟩
  | cons object rest ih =>
      obtain ⟨⟨key, own, present⟩, later⟩ := List.forall_mem_cons.mp listed
      obtain ⟨all, after, kept, rest_seen⟩ := ih (lists.step own present) later
      refine ⟨all, after, fun place before => kept place (by simp [before]), ?_⟩
      intro other member place own_place
      rcases List.mem_cons.mp member with rfl | member
      · have same : place = key := by rw [own] at own_place; exact (Except.ok.inj own_place).symm
        exact kept place (by simp [same])
      · exact rest_seen other member place own_place

/-- A listing leaves exactly the objects that were listed. -/
theorem items_steps_listing (index : Index α) {objects : Std.ExtTreeMap Key α}
    (keyed : Keyed objects) :
    (index.steps (Delta.listing (objects.toList.map (·.2)))).1.items = objects := by
  have start : (index.step .init).1.Lists objects ∅ := ⟨rfl, by simp, by simp⟩
  have listed : ∀ object ∈ objects.toList.map (·.2), ∃ key, Resource.key object = .ok key ∧
      objects[key]? = some object := by
    intro object member
    obtain ⟨⟨key, held⟩, entry, rfl⟩ := List.mem_map.mp member
    have present := Std.ExtTreeMap.mem_toList_iff_getElem?_eq_some.mp entry
    exact ⟨key, keyed key held present, present⟩
  obtain ⟨all, lists, _, named⟩ := start.steps _ listed
  have complete : ∀ key, key ∈ all ↔ key ∈ objects := by
    intro key
    refine ⟨lists.known key, fun present => ?_⟩
    obtain ⟨object, held⟩ := Option.isSome_iff_exists.mp
      (Std.ExtTreeMap.mem_iff_isSome_getElem?.mp present)
    have entry := Std.ExtTreeMap.mem_toList_iff_getElem?_eq_some.mpr held
    exact named object (List.mem_map.mpr ⟨_, entry, rfl⟩) key (keyed key object held)
  have split : (index.steps (Delta.listing (objects.toList.map (·.2)))).1 =
      ((index.step .init).1.steps ((objects.toList.map (·.2)).map .initApplied)).1.closeListing.1 := by
    change (((index.step .init).1.steps (_ ++ [Delta.initDone])).1) = _
    rw [steps_append]
    rfl
  rw [split]
  apply Std.ExtTreeMap.ext_getElem?
  intro key
  rw [getElem?_closeListing _ lists.opened]
  by_cases present : key ∈ all
  · rw [if_pos present, lists.agrees key present]
  · have absent : objects[key]? = none := by simpa [complete key] using present
    rw [if_neg present, absent]

/-! The number of batches so far is of no account to what a delta does. -/

def withEpoch (index : Index α) (epoch : Nat) : Index α := { index with epoch }

theorem put_withEpoch (index : Index α) (epoch : Nat) (key : Key) (object : α) :
    (index.withEpoch epoch).put key object =
      ((index.put key object).1.withEpoch epoch, (index.put key object).2) := by
  simp only [put, withEpoch]
  cases index.items[key]? <;> rfl

theorem upsert_withEpoch (index : Index α) (epoch : Nat) (object : α) :
    (index.withEpoch epoch).upsert object =
      ((index.upsert object).1.withEpoch epoch, (index.upsert object).2) := by
  unfold upsert
  cases Resource.key object with
  | ok key => simp only [put_withEpoch]
  | error fault => rfl

theorem remove_withEpoch (index : Index α) (epoch : Nat) (key : Key) :
    (index.withEpoch epoch).remove key = (index.remove key).withEpoch epoch := by
  simp only [remove, withEpoch]
  cases index.items[key]? <;> rfl

theorem removeAll_withEpoch (index : Index α) (epoch : Nat) (keys : List Key) :
    (index.withEpoch epoch).removeAll keys =
      ((index.removeAll keys).1.withEpoch epoch, (index.removeAll keys).2) := by
  induction keys generalizing index with
  | nil => rfl
  | cons key rest ih =>
      have items : (index.withEpoch epoch).items = index.items := rfl
      simp only [removeAll, remove_withEpoch, ih, items]
      cases index.items[key]? <;> rfl

theorem see_withEpoch (index : Index α) (epoch : Nat) (object : α) :
    (index.withEpoch epoch).see object = (index.see object).withEpoch epoch := by
  obtain ⟨_, _, _, listing, _⟩ := index
  unfold see
  cases listing <;> cases Resource.key object <;> rfl

theorem closeListing_withEpoch (index : Index α) (epoch : Nat) :
    (index.withEpoch epoch).closeListing =
      (index.closeListing.1.withEpoch epoch, index.closeListing.2) := by
  have listing : (index.withEpoch epoch).listing = index.listing := rfl
  unfold closeListing
  rw [listing]
  cases index.listing with
  | none => rfl
  | some seen =>
      have closed := removeAll_withEpoch { index with listing := none } epoch (index.unlisted seen)
      exact congrArg (fun done => (({ done.1 with synced := true } : Index α), done.2)) closed

theorem step_withEpoch (index : Index α) (epoch : Nat) (delta : Delta α) :
    (index.withEpoch epoch).step delta =
      ((index.step delta).1.withEpoch epoch, (index.step delta).2) := by
  cases delta with
  | applied object => exact index.upsert_withEpoch epoch object
  | initApplied object => simp only [step, see_withEpoch, upsert_withEpoch]
  | deleted object =>
      cases own : Resource.key object with
      | ok key => simp only [step, own, remove_withEpoch]
      | error fault => simp only [step, own]
  | init => rfl
  | initDone => exact index.closeListing_withEpoch epoch

theorem steps_withEpoch (index : Index α) (epoch : Nat) (deltas : List (Delta α)) :
    (index.withEpoch epoch).steps deltas =
      ((index.steps deltas).1.withEpoch epoch, (index.steps deltas).2) := by
  induction deltas generalizing index with
  | nil => rfl
  | cons delta rest ih => simp only [steps, step_withEpoch, ih]

def applyAll (index : Index α) (batches : List (List (Delta α))) : Index α :=
  batches.foldl (fun index batch => (index.apply batch).1) index

/-- However deltas are cut into batches, they do the same; the batches are only counted. -/
theorem applyAll_eq (index : Index α) (batches : List (List (Delta α))) :
    index.applyAll batches =
      (index.steps batches.flatten).1.withEpoch (index.epoch + batches.length) := by
  induction batches generalizing index with
  | nil => rfl
  | cons batch rest ih =>
      have first : (index.apply batch).1 = (index.steps batch).1.withEpoch (index.epoch + 1) := rfl
      have count : index.epoch + 1 + rest.length = index.epoch + (batch :: rest).length := by
        rw [List.length_cons]
        omega
      calc index.applyAll (batch :: rest)
        _ = (index.apply batch).1.applyAll rest := rfl
        _ = ((index.apply batch).1.steps rest.flatten).1.withEpoch
              ((index.apply batch).1.epoch + rest.length) := ih _
        _ = ((index.steps batch).1.steps rest.flatten).1.withEpoch
              (index.epoch + 1 + rest.length) := by
            rw [first, steps_withEpoch]
            rfl
        _ = (index.steps (batch :: rest).flatten).1.withEpoch
              (index.epoch + (batch :: rest).length) := by
            rw [count, List.flatten_cons, steps_append]

end Index

end ReconcileLoop

import ReconcileLoop.Cache.Index

namespace ReconcileLoop

/-! # Notifications replay to the cache

Whoever knows the objects of an index before some deltas and is told the notifications that they
give rise to, knows the objects after them: what is added was absent, what is updated was exactly
the old state, and what is deleted is gone. `Index.steps_replay` says so of any deltas, and
`Index.apply_replay` of a batch.
-/

variable {α : Type} [Resource α]

/-- Notifications that lead from some objects to others, in order. -/
inductive Replay : Std.ExtTreeMap Key α → List (Notification α) → Std.ExtTreeMap Key α → Prop where
  | done {items} : Replay items [] items
  | added {items key object rest after} (keyed : Resource.key object = .ok key)
      (absent : items[key]? = none) (later : Replay (items.insert key object) rest after) :
      Replay items (.added object :: rest) after
  | updated {items key old new rest after} (keyed : Resource.key new = .ok key)
      (present : items[key]? = some old) (later : Replay (items.insert key new) rest after) :
      Replay items (.updated old new :: rest) after
  | deleted {items key object rest after} (keyed : Resource.key object = .ok key)
      (later : Replay (items.erase key) rest after) :
      Replay items (.deleted object :: rest) after

/-- Every object stands under its own key. -/
def Keyed (items : Std.ExtTreeMap Key α) : Prop :=
  ∀ key object, items[key]? = some object → Resource.key object = .ok key

def Notification.IsAbout (notification : Notification α) (key : Key) : Prop :=
  Resource.key notification.object = .ok key

theorem Keyed.empty : Keyed (∅ : Std.ExtTreeMap Key α) := by
  intro key object found
  simp at found

theorem Keyed.insert {items : Std.ExtTreeMap Key α} {key : Key} {object : α}
    (keyed : Keyed items) (own : Resource.key object = .ok key) :
    Keyed (items.insert key object) := by
  intro other held found
  rw [Std.ExtTreeMap.getElem?_insert] at found
  split at found
  · next same =>
      cases found
      rw [own, Std.LawfulEqOrd.eq_of_compare same]
  · exact keyed other held found

theorem Keyed.erase {items : Std.ExtTreeMap Key α} (keyed : Keyed items) (key : Key) :
    Keyed (items.erase key) := by
  intro other held found
  rw [Std.ExtTreeMap.getElem?_erase] at found
  split at found
  · contradiction
  · exact keyed other held found

namespace Replay

theorem append {items middle after : Std.ExtTreeMap Key α} {first second : List (Notification α)}
    (start : Replay items first middle) (finish : Replay middle second after) :
    Replay items (first ++ second) after := by
  induction start with
  | done => exact finish
  | added keyed absent _ ih => exact .added keyed absent (ih finish)
  | updated keyed present _ ih => exact .updated keyed present (ih finish)
  | deleted keyed _ ih => exact .deleted keyed (ih finish)

theorem keyed {items after : Std.ExtTreeMap Key α} {notes : List (Notification α)}
    (replay : Replay items notes after) (start : Keyed items) : Keyed after := by
  induction replay with
  | done => exact start
  | added own _ _ ih => exact ih (start.insert own)
  | updated own _ _ ih => exact ih (start.insert own)
  | deleted _ _ ih => exact ih (start.erase _)

theorem getElem?_eq {items after : Std.ExtTreeMap Key α} {notes : List (Notification α)} {key : Key}
    (replay : Replay items notes after) (silent : ∀ note ∈ notes, ¬note.IsAbout key) :
    after[key]? = items[key]? := by
  induction replay with
  | done => rfl
  | @added _ own _ _ _ keyed _ _ ih =>
      obtain ⟨head, tail⟩ := List.forall_mem_cons.mp silent
      have differ : own ≠ key := by rintro rfl; exact head keyed
      rw [ih tail]
      simp [Std.ExtTreeMap.getElem?_insert, differ]
  | @updated _ own _ _ _ _ keyed _ _ ih =>
      obtain ⟨head, tail⟩ := List.forall_mem_cons.mp silent
      have differ : own ≠ key := by rintro rfl; exact head keyed
      rw [ih tail]
      simp [Std.ExtTreeMap.getElem?_insert, differ]
  | @deleted _ own _ _ _ keyed _ ih =>
      obtain ⟨head, tail⟩ := List.forall_mem_cons.mp silent
      have differ : own ≠ key := by rintro rfl; exact head keyed
      rw [ih tail]
      simp [Std.ExtTreeMap.getElem?_erase, differ]

end Replay

namespace Index

theorem put_replay (index : Index α) {key : Key} {object : α}
    (own : Resource.key object = .ok key) :
    Replay index.items [(index.put key object).2] (index.put key object).1.items := by
  unfold put
  cases present : index.items[key]? with
  | none => exact .added own present .done
  | some old => exact .updated own present .done

theorem upsert_replay (index : Index α) (object : α) :
    Replay index.items (index.upsert object).2 (index.upsert object).1.items := by
  unfold upsert
  cases own : Resource.key object with
  | ok key => exact index.put_replay own
  | error fault => exact .done

theorem items_remove (index : Index α) (key : Key) :
    (index.remove key).items = index.items.erase key := by
  cases present : index.items[key]? with
  | some gone => simp [remove, present]
  | none =>
      have same : index.remove key = index := by simp [remove, present]
      rw [same]
      apply Std.ExtTreeMap.ext_getElem?
      intro other
      rw [Std.ExtTreeMap.getElem?_erase]
      by_cases own : key = other
      · subst own; simp [present]
      · simp [own]

theorem removeAll_cons (index : Index α) (key : Key) (rest : List Key) :
    (index.removeAll (key :: rest)).1 = ((index.remove key).removeAll rest).1 := by
  simp only [removeAll]
  cases index.items[key]? <;> rfl

theorem removeAll_replay (index : Index α) (keys : List Key) (keyed : Keyed index.items) :
    Replay index.items (index.removeAll keys).2 (index.removeAll keys).1.items := by
  induction keys generalizing index with
  | nil => exact .done
  | cons key rest ih =>
      have later := ih (index.remove key) (by rw [items_remove]; exact keyed.erase key)
      unfold removeAll
      cases present : index.items[key]? with
      | some gone =>
          rw [items_remove] at later
          exact .deleted (keyed key gone present) later
      | none =>
          have same : index.remove key = index := by simp [remove, present]
          rw [same] at later ⊢
          exact later

@[simp] theorem items_see (index : Index α) (object : α) :
    (index.see object).items = index.items := by
  unfold see
  split <;> rfl

theorem closeListing_replay (index : Index α) (keyed : Keyed index.items) :
    Replay index.items index.closeListing.2 index.closeListing.1.items := by
  unfold closeListing
  cases index.listing with
  | some seen => exact removeAll_replay { index with listing := none } _ keyed
  | none => exact .done

/-- One delta: what it is told about is what it does. -/
theorem step_replay (index : Index α) (delta : Delta α) (keyed : Keyed index.items) :
    Replay index.items (index.step delta).2 (index.step delta).1.items := by
  cases delta with
  | applied object => exact index.upsert_replay object
  | initApplied object => simpa [step] using (index.see object).upsert_replay object
  | deleted object =>
      simp only [step]
      cases own : Resource.key object with
      | ok key => exact .deleted own (by simp only [items_remove]; exact .done)
      | error fault => exact .done
  | init => exact .done
  | initDone => exact index.closeListing_replay keyed

theorem steps_replay (index : Index α) (deltas : List (Delta α)) (keyed : Keyed index.items) :
    Replay index.items (index.steps deltas).2 (index.steps deltas).1.items := by
  induction deltas generalizing index with
  | nil => exact .done
  | cons delta rest ih =>
      have first := index.step_replay delta keyed
      exact first.append (ih (index.step delta).1 (first.keyed keyed))

theorem apply_replay (index : Index α) (batch : List (Delta α)) (keyed : Keyed index.items) :
    Replay index.items (index.apply batch).2 (index.apply batch).1.items :=
  index.steps_replay batch keyed

end Index

end ReconcileLoop

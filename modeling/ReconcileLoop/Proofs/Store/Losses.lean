import ReconcileLoop.Proofs.Cache.Batching
import ReconcileLoop.Proofs.Store.Told

namespace ReconcileLoop

/-! # Objects that somebody else removes

Objects that are removed from a store are gone, all others stay, and the feed tells of each of them.
A cache that takes that in hands on one notification for each, in whatever batches it comes.
-/

variable {α : Type}

namespace Store

/-- Removes what is under some keys, one after the other, and says what was there. -/
def removeAll (store : Store α) : List Key → List α × Store α
  | [] => ([], store)
  | key :: rest =>
      let (gone?, after) := store.remove key
      let (gone, last) := after.removeAll rest
      (gone?.toList ++ gone, last)

theorem removeAll_cons (store : Store α) (key : Key) (rest : List Key) :
    store.removeAll (key :: rest) =
      ((store.remove key).1.toList ++ ((store.remove key).2.removeAll rest).1,
        ((store.remove key).2.removeAll rest).2) :=
  rfl

theorem remove_fst (store : Store α) (key : Key) : (store.remove key).1 = store.objects[key]? := by
  unfold remove
  cases present : store.objects[key]? <;> rfl

theorem objects_remove (store : Store α) (key : Key) :
    (store.remove key).2.objects = store.objects.erase key := by
  cases present : store.objects[key]? with
  | some gone => simp [remove, present, announce]
  | none =>
      have same : (store.remove key).2 = store := by simp [remove, present]
      rw [same]
      apply Std.ExtTreeMap.ext_getElem?
      intro other
      rw [Std.ExtTreeMap.getElem?_erase]
      by_cases own : key = other
      · subst own; simp [present]
      · simp [own]

theorem feed_remove (store : Store α) (key : Key) :
    (store.remove key).2.feed = store.feed ++ (store.remove key).1.toList.map .deleted := by
  unfold remove
  cases store.objects[key]? <;> simp [announce]

theorem failures_remove (store : Store α) (key : Key) :
    (store.remove key).2.failures = store.failures := by
  unfold remove
  cases store.objects[key]? <;> rfl

theorem getElem?_removeAll (store : Store α) (keys : List Key) (place : Key) :
    (store.removeAll keys).2.objects[place]? =
      if place ∈ keys then none else store.objects[place]? := by
  induction keys generalizing store with
  | nil => rfl
  | cons key rest ih =>
      simp only [removeAll_cons, ih, objects_remove, Std.ExtTreeMap.getElem?_erase, List.mem_cons]
      by_cases later : place ∈ rest
      · simp [later]
      · by_cases here : key = place
        · simp [here]
        · simp [later, here, Ne.symm here]

theorem feed_removeAll (store : Store α) (keys : List Key) :
    (store.removeAll keys).2.feed = store.feed ++ (store.removeAll keys).1.map .deleted := by
  induction keys generalizing store with
  | nil => simp [removeAll]
  | cons key rest ih =>
      simp only [removeAll_cons, ih, feed_remove, List.map_append, List.append_assoc]

theorem failures_removeAll (store : Store α) (keys : List Key) :
    (store.removeAll keys).2.failures = store.failures := by
  induction keys generalizing store with
  | nil => rfl
  | cons key rest ih => simp only [removeAll_cons, ih, failures_remove]

theorem of_mem_removeAll {store : Store α} {keys : List Key} {gone : α}
    (member : gone ∈ (store.removeAll keys).1) :
    ∃ key ∈ keys, store.objects[key]? = some gone := by
  induction keys generalizing store with
  | nil => contradiction
  | cons key rest ih =>
      rw [removeAll_cons, List.mem_append] at member
      rcases member with here | later
      · rw [remove_fst] at here
        exact ⟨key, List.mem_cons_self .., Option.mem_toList.mp here⟩
      · obtain ⟨place, inside, present⟩ := ih later
        rw [objects_remove, Std.ExtTreeMap.getElem?_erase] at present
        split at present
        · contradiction
        · exact ⟨place, List.mem_cons_of_mem _ inside, present⟩

variable [Resource α]

theorem removeAll_tells {store : Store α} (keyed : Keyed store.objects) (keys : List Key) :
    store.Tells (store.removeAll keys).2 := by
  induction keys generalizing store with
  | nil => exact .refl store
  | cons key rest ih =>
      have shift := store.remove_shift key
      exact (shift.tells keyed).trans (ih (shift.keyed keyed))

end Store

theorem Index.steps_deleted [Resource α] (index : Index α) {gone : List α}
    (named : ∀ object ∈ gone, ∃ key, Resource.key object = .ok key) :
    (index.steps (gone.map .deleted)).2 = gone.map .deleted := by
  induction gone generalizing index with
  | nil => rfl
  | cons object rest ih =>
      obtain ⟨⟨key, own⟩, named⟩ := List.forall_mem_cons.mp named
      simp only [List.map_cons, steps, ih _ named, step, own, List.cons_append, List.nil_append]

end ReconcileLoop

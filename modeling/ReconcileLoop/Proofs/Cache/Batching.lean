import ReconcileLoop.Proofs.Cache.OwnedObjects

namespace ReconcileLoop

/-! # However deltas are cut into batches

The close of a listing removes what the listing did not name, and no order is promised for that.
`Index.Takes` allows every order, also the one of `Index.step`. Whatever the orders, the index that is
left is the same, since its objects determine its index by owner (`OwnerIndex.Covers.unique`); and
whatever the batches, the deltas tell the same, but for the orders (`Index.same_however_cut`).
-/

variable {α : Type} [Resource α]

namespace OwnerIndex

theorem Trim.getElem?_eq {owners : OwnerIndex} (trim : owners.Trim) (uid : String) :
    owners[uid]? = if (owners.keys uid).isEmpty then none else some (owners.keys uid) := by
  cases found : owners[uid]? with
  | none => simp [keys, found]
  | some under =>
      obtain ⟨key, member⟩ := trim uid under found
      have same : owners.keys uid = under := by simp [keys, found]
      have used : under.isEmpty = false := by
        refine Bool.eq_false_iff.mpr fun empty => ?_
        rw [Std.ExtTreeSet.isEmpty_iff.mp empty] at member
        exact Std.ExtTreeSet.not_mem_empty member
      rw [same, used]
      rfl

theorem Covers.unique {first second : OwnerIndex} {items : Std.ExtTreeMap Key α}
    (covers : first.Covers items) (others : second.Covers items) (trim : first.Trim)
    (trimmed : second.Trim) : first = second := by
  apply Std.ExtTreeMap.ext_getElem?
  intro uid
  have same : first.keys uid = second.keys uid :=
    Std.ExtTreeSet.ext_mem fun key => (covers uid key).trans (others uid key).symm
  rw [trim.getElem?_eq, trimmed.getElem?_eq, same]

end OwnerIndex

/-- The same notifications, delta by delta, but for the order of those that close a listing. -/
inductive Reordered : List (Delta α) → List (List (Notification α)) → List (List (Notification α)) →
    Prop where
  | nil : Reordered [] [] []
  | same {delta rest first second} (notes : List (Notification α))
      (later : Reordered rest first second) :
      Reordered (delta :: rest) (notes :: first) (notes :: second)
  | close {rest notes others first second} (gone : ∀ note ∈ notes, ∃ object, note = .deleted object)
      (order : notes.Perm others) (later : Reordered rest first second) :
      Reordered (.initDone :: rest) (notes :: first) (others :: second)

namespace Index

/-- What every index has that came about by deltas. -/
structure Consistent (index : Index α) : Prop where
  keyed : Keyed index.items
  covers : index.owners.Covers index.items
  trim : index.owners.Trim

theorem Consistent.empty : ({} : Index α).Consistent :=
  ⟨Keyed.empty, OwnerIndex.Covers.empty, OwnerIndex.Trim.empty⟩

theorem Consistent.step {index : Index α} (consistent : index.Consistent) (delta : Delta α) :
    (index.step delta).1.Consistent where
  keyed := (index.step_replay delta consistent.keyed).keyed consistent.keyed
  covers := step_owned consistent.covers delta
  trim := step_trim consistent.trim delta

theorem Consistent.steps {index : Index α} (consistent : index.Consistent)
    (deltas : List (Delta α)) : (index.steps deltas).1.Consistent := by
  induction deltas generalizing index with
  | nil => exact consistent
  | cons delta rest ih => exact ih (consistent.step delta)

theorem Consistent.applyAll {index : Index α} (consistent : index.Consistent)
    (batches : List (List (Delta α))) : (index.applyAll batches).Consistent := by
  have whole := consistent.steps batches.flatten
  rw [applyAll_eq]
  exact ⟨whole.keyed, whole.covers, whole.trim⟩

/-! The close of a listing, in any order. -/

def closeInOrder (index : Index α) (stale : List Key) : Index α × List (Notification α) :=
  let (after, notes) := { index with listing := none }.removeAll stale
  ({ after with synced := true }, notes)

theorem step_initDone {index : Index α} {seen : Std.ExtTreeSet Key}
    (opened : index.listing = some seen) :
    index.step .initDone = index.closeInOrder (index.unlisted seen) := by
  simp only [step, closeListing, opened, closeInOrder]

omit [Resource α] in
theorem nodup_unlisted (index : Index α) (seen : Std.ExtTreeSet Key) :
    (index.unlisted seen).Nodup :=
  Std.ExtTreeMap.nodup_keys.filter _

theorem remove_frame (index : Index α) (key : Key) :
    (index.remove key).listing = index.listing ∧ (index.remove key).epoch = index.epoch := by
  unfold remove
  cases index.items[key]? <;> exact ⟨rfl, rfl⟩

theorem removeAll_frame (index : Index α) (keys : List Key) :
    (index.removeAll keys).1.listing = index.listing ∧
      (index.removeAll keys).1.epoch = index.epoch := by
  induction keys generalizing index with
  | nil => exact ⟨rfl, rfl⟩
  | cons key rest ih =>
      rw [removeAll_cons, (ih _).1, (ih _).2]
      exact index.remove_frame key

theorem notes_removeAll (index : Index α) {keys : List Key} (distinct : keys.Nodup) :
    (index.removeAll keys).2 = keys.filterMap fun key => index.items[key]?.map .deleted := by
  induction keys generalizing index with
  | nil => rfl
  | cons key rest ih =>
      obtain ⟨other, distinct⟩ := List.nodup_cons.mp distinct
      have later : ((index.remove key).removeAll rest).2 =
          rest.filterMap fun key => index.items[key]?.map .deleted := by
        rw [ih _ distinct]
        refine List.filterMap_congr fun place member => ?_
        have differ : key ≠ place := by rintro rfl; exact other member
        simp [items_remove, Std.ExtTreeMap.getElem?_erase, differ]
      simp only [removeAll, later]
      cases present : index.items[key]? with
      | none => simp [present]
      | some gone => simp [present]

theorem closeInOrder_perm {index : Index α} (consistent : index.Consistent)
    {stale others : List Key} (order : stale.Perm others) (distinct : others.Nodup) :
    (index.closeInOrder stale).1 = (index.closeInOrder others).1 ∧
      (index.closeInOrder stale).2.Perm (index.closeInOrder others).2 := by
  let closed : Index α := { index with listing := none }
  have items : (closed.removeAll stale).1.items = (closed.removeAll others).1.items := by
    apply Std.ExtTreeMap.ext_getElem?
    intro key
    simp only [getElem?_removeAll, order.mem_iff]
  have owners : (closed.removeAll stale).1.owners = (closed.removeAll others).1.owners := by
    have covers := @removeAll_owned _ _ closed consistent.covers stale
    rw [items] at covers
    exact covers.unique (@removeAll_owned _ _ closed consistent.covers others)
      (@removeAll_trim _ _ closed consistent.trim stale)
      (@removeAll_trim _ _ closed consistent.trim others)
  constructor
  · obtain ⟨listing, epoch⟩ := closed.removeAll_frame stale
    obtain ⟨sameListing, sameEpoch⟩ := closed.removeAll_frame others
    simp only [closeInOrder, Index.mk.injEq, and_true]
    exact ⟨epoch.trans sameEpoch.symm, items, owners, listing.trans sameListing.symm⟩
  · change (closed.removeAll stale).2.Perm (closed.removeAll others).2
    rw [closed.notes_removeAll (order.nodup_iff.mpr distinct), closed.notes_removeAll distinct]
    exact order.filterMap _

/-- What one delta may do: the close of a listing takes what is stale in any order. -/
inductive Takes (index : Index α) : Delta α → Index α → List (Notification α) → Prop where
  | step (delta : Delta α) : Takes index delta (index.step delta).1 (index.step delta).2
  | close {seen : Std.ExtTreeSet Key} {stale : List Key} (opened : index.listing = some seen)
      (order : stale.Perm (index.unlisted seen)) :
      Takes index .initDone (index.closeInOrder stale).1 (index.closeInOrder stale).2

/-- What deltas may do one after the other, with what each of them tells. -/
inductive TakesIn : Index α → List (Delta α) → Index α → List (List (Notification α)) → Prop where
  | done {index} : TakesIn index [] index []
  | next {index middle after delta rest notes told} (took : Takes index delta middle notes)
      (later : TakesIn middle rest after told) : TakesIn index (delta :: rest) after (notes :: told)

/-- What batches may do one after the other, with what each of their deltas tells. -/
inductive TakesAll : Index α → List (List (Delta α)) → Index α → List (List (Notification α)) →
    Prop where
  | done {index} : TakesAll index [] index []
  | batch {index after last batch rest told more} (ran : TakesIn index batch after told)
      (later : TakesAll (after.withEpoch (index.epoch + 1)) rest last more) :
      TakesAll index (batch :: rest) last (told ++ more)

namespace Takes

variable {index after : Index α} {delta : Delta α} {notes : List (Notification α)}

theorem step_eq (took : index.Takes delta after notes) (consistent : index.Consistent) :
    after = (index.step delta).1 ∧ notes.Perm (index.step delta).2 ∧
      (delta ≠ .initDone → notes = (index.step delta).2) := by
  cases took with
  | step delta => exact ⟨rfl, .refl _, fun _ => rfl⟩
  | close opened order =>
      rw [step_initDone opened]
      obtain ⟨same, perm⟩ := closeInOrder_perm consistent order (index.nodup_unlisted _)
      exact ⟨same, perm, fun goesOn => absurd rfl goesOn⟩

theorem replay (took : index.Takes delta after notes) (keyed : Keyed index.items) :
    Replay index.items notes after.items := by
  cases took with
  | step delta => exact index.step_replay delta keyed
  | close opened order => exact removeAll_replay { index with listing := none } _ keyed

theorem withEpoch (took : index.Takes delta after notes) (epoch : Nat) :
    (index.withEpoch epoch).Takes delta (after.withEpoch epoch) notes := by
  cases took with
  | step delta =>
      have took : (index.withEpoch epoch).Takes delta _ _ := .step delta
      rwa [step_withEpoch] at took
  | @close seen stale opened order =>
      have took : (index.withEpoch epoch).Takes .initDone _ _ := .close opened order
      have closed := removeAll_withEpoch { index with listing := none } epoch stale
      have same : (index.withEpoch epoch).closeInOrder stale =
          ((index.closeInOrder stale).1.withEpoch epoch, (index.closeInOrder stale).2) :=
        congrArg (fun done => (({ done.1 with synced := true } : Index α), done.2)) closed
      rwa [same] at took

end Takes

theorem deleted_of_step_initDone (index : Index α) :
    ∀ note ∈ (index.step .initDone).2, ∃ object, note = .deleted object := by
  intro note told
  cases opened : index.listing with
  | none => simp [step, closeListing, opened] at told
  | some seen =>
      rw [step_initDone opened] at told
      change note ∈ (removeAll { index with listing := none } _).2 at told
      rw [notes_removeAll _ (index.nodup_unlisted seen)] at told
      obtain ⟨key, _, gone⟩ := List.mem_filterMap.mp told
      obtain ⟨object, _, rfl⟩ := Option.map_eq_some_iff.mp gone
      exact ⟨object, rfl⟩

namespace TakesIn

variable {index after other : Index α} {deltas : List (Delta α)}
  {told others : List (List (Notification α))}

theorem append {middle : Index α} {first second : List (Delta α)}
    {more : List (List (Notification α))} (start : index.TakesIn first middle told)
    (finish : middle.TakesIn second after more) : index.TakesIn (first ++ second) after (told ++ more) := by
  induction start with
  | done => exact finish
  | next took _ ih => exact .next took (ih finish)

theorem withEpoch (ran : index.TakesIn deltas after told) (epoch : Nat) :
    (index.withEpoch epoch).TakesIn deltas (after.withEpoch epoch) told := by
  induction ran with
  | done => exact .done
  | next took _ ih => exact .next (took.withEpoch epoch) ih

theorem replay (ran : index.TakesIn deltas after told) (keyed : Keyed index.items) :
    Replay index.items told.flatten after.items := by
  induction ran with
  | done => exact .done
  | next took _ ih =>
      have first := took.replay keyed
      exact first.append (ih (first.keyed keyed))

theorem reordered (ran : index.TakesIn deltas after told) (again : index.TakesIn deltas other others)
    (consistent : index.Consistent) : after = other ∧ Reordered deltas told others := by
  induction ran generalizing other others with
  | done =>
      cases again
      exact ⟨rfl, .nil⟩
  | @next index middle after delta rest notes told took _ ih =>
      cases again with
      | @next _ second _ _ _ differently _ tookAgain more =>
          obtain ⟨left, perm, plain⟩ := took.step_eq consistent
          obtain ⟨same, permAgain, plainAgain⟩ := tookAgain.step_eq consistent
          rw [same, ← left] at more
          obtain ⟨reached, later⟩ := ih more (left ▸ consistent.step delta)
          refine ⟨reached, ?_⟩
          by_cases done : delta = .initDone
          · subst done
            have gone : ∀ note ∈ notes, ∃ object, note = .deleted object := fun note member =>
              index.deleted_of_step_initDone note (perm.mem_iff.mp member)
            exact .close gone (perm.trans permAgain.symm) later
          · rw [plain done, plainAgain done]
            exact .same _ later

end TakesIn

theorem TakesAll.takesIn {index last : Index α} {batches : List (List (Delta α))}
    {told : List (List (Notification α))} (runs : index.TakesAll batches last told) :
    ∃ after, index.TakesIn batches.flatten after told ∧
      last = after.withEpoch (index.epoch + batches.length) := by
  induction runs with
  | @done index => exact ⟨index, .done, rfl⟩
  | @batch index middle last batch rest told more ran _ ih =>
      obtain ⟨after, later, rfl⟩ := ih
      have whole := ran.append (later.withEpoch middle.epoch)
      refine ⟨after.withEpoch middle.epoch, whole, ?_⟩
      have count : index.epoch + 1 + rest.length = index.epoch + (batch :: rest).length := by
        rw [List.length_cons]
        omega
      rw [← count]
      rfl

/-- What each of some deltas tells. -/
def told (index : Index α) : List (Delta α) → List (List (Notification α))
  | [] => []
  | delta :: rest => (index.step delta).2 :: (index.step delta).1.told rest

/-- What batches tell, all of it. -/
def notesAll (index : Index α) : List (List (Delta α)) → List (Notification α)
  | [] => []
  | batch :: rest => (index.apply batch).2 ++ (index.apply batch).1.notesAll rest

theorem takesIn_steps (index : Index α) (deltas : List (Delta α)) :
    index.TakesIn deltas (index.steps deltas).1 (index.told deltas) := by
  induction deltas generalizing index with
  | nil => exact .done
  | cons delta rest ih => exact .next (.step delta) (ih _)

theorem flatten_told (index : Index α) (deltas : List (Delta α)) :
    (index.told deltas).flatten = (index.steps deltas).2 := by
  induction deltas generalizing index with
  | nil => rfl
  | cons delta rest ih => simp only [told, steps, List.flatten_cons, ih]

theorem notesAll_eq (index : Index α) (batches : List (List (Delta α))) :
    index.notesAll batches = (index.steps batches.flatten).2 := by
  induction batches generalizing index with
  | nil => rfl
  | cons batch rest ih =>
      have first : (index.apply batch).1 = (index.steps batch).1.withEpoch (index.epoch + 1) := rfl
      simp only [notesAll, ih, first, steps_withEpoch, List.flatten_cons, steps_append]
      rfl

theorem takesAll_applyAll (index : Index α) (batches : List (List (Delta α))) :
    ∃ told, index.TakesAll batches (index.applyAll batches) told ∧
      told.flatten = index.notesAll batches := by
  induction batches generalizing index with
  | nil => exact ⟨[], .done, rfl⟩
  | cons batch rest ih =>
      obtain ⟨more, later, same⟩ := ih (index.apply batch).1
      refine ⟨index.told batch ++ more, .batch (index.takesIn_steps batch) later, ?_⟩
      rw [List.flatten_append, flatten_told, same]
      rfl

/-- Whatever batches led to an index: the notifications of a batch replay to the objects after it,
and however deltas are cut into batches they leave the same objects, owners, listing and sync state,
and tell the same but for the order in which a listing is closed. The batches are only counted. What
applying a batch does is one of the orders. -/
theorem same_however_cut (earlier : List (List (Delta α))) :
    let index := ({} : Index α).applyAll earlier
    (∀ batch, Replay index.items (index.apply batch).2 (index.apply batch).1.items) ∧
    (∀ batch after told, index.TakesIn batch after told →
      Replay index.items told.flatten after.items) ∧
    (∀ first second : List (List (Delta α)), first.flatten = second.flatten →
      ∀ one other told others, index.TakesAll first one told → index.TakesAll second other others →
        one.items = other.items ∧ one.owners = other.owners ∧ one.listing = other.listing ∧
        one.synced = other.synced ∧ Reordered first.flatten told others ∧
        one.epoch = earlier.length + first.length ∧
        other.epoch = earlier.length + second.length) ∧
    ∀ batches, ∃ told, index.TakesAll batches (index.applyAll batches) told ∧
      told.flatten = index.notesAll batches := by
  intro index
  have consistent : index.Consistent := Consistent.empty.applyAll earlier
  have count : index.epoch = earlier.length := by
    change (({} : Index α).applyAll earlier).epoch = earlier.length
    rw [applyAll_eq]
    exact Nat.zero_add _
  refine ⟨fun batch => index.apply_replay batch consistent.keyed,
    fun batch after told ran => ran.replay consistent.keyed, ?_, index.takesAll_applyAll⟩
  intro first second cut one other told others ran ranAgain
  obtain ⟨after, took, rfl⟩ := ran.takesIn
  obtain ⟨reached, tookAgain, rfl⟩ := ranAgain.takesIn
  rw [← cut] at tookAgain
  obtain ⟨rfl, reordered⟩ := took.reordered tookAgain consistent
  exact ⟨rfl, rfl, rfl, rfl, reordered, by rw [← count]; rfl, by rw [← count]; rfl⟩

/-- Two services vanish in one order from one batch, and in the other order from two batches. -/
theorem same_however_cut_relisted :
    let service (name : String) : Service := { metadata := { name := some name } }
    let index := ({} : Index Service).applyAll
      [[.init, .initApplied (service "a")], [.initDone, .applied (service "b"), .applied {}]]
    ∃ one other told others,
      index.TakesAll [[.init, .initDone]] one told ∧
      index.TakesAll [[.init], [.initDone]] other others ∧
      told.flatten = [.deleted (service "a"), .deleted (service "b")] ∧
      others.flatten = [.deleted (service "b"), .deleted (service "a")] ∧
      one.items = other.items ∧ Reordered [.init, .initDone] told others ∧
      one.epoch = 3 ∧ other.epoch = 4 := by
  intro service index
  have swapped : [⟨none, "b"⟩, ⟨none, "a"⟩].Perm ((index.step .init).1.unlisted ∅) := by
    have stale : (index.step .init).1.unlisted ∅ = [⟨none, "a"⟩, ⟨none, "b"⟩] := by decide +kernel
    rw [stale]
    exact List.Perm.swap ..
  have one : index.TakesAll [[.init, .initDone]] _ _ :=
    .batch (.next (.step .init) (.next (.step .initDone) .done)) .done
  have other : index.TakesAll [[.init], [.initDone]] _ _ :=
    .batch (.next (.step .init) .done) (.batch (.next (.close rfl swapped) .done) .done)
  obtain ⟨items, _, _, _, reordered, count, countAgain⟩ :=
    (same_however_cut _).2.2.1 [[.init, .initDone]] [[.init], [.initDone]] rfl _ _ _ _ one other
  exact ⟨_, _, _, _, one, other, by decide +kernel, by decide +kernel, items, reordered, count,
    countAgain⟩

end Index

end ReconcileLoop

import Mathlib.Data.List.Induction
import ReconcileLoop.Proofs.Cache.Batching

namespace ReconcileLoop

/-! # What a listing leaves in a cache

Between the last `init` and the `initDone` that ends it, objects are listed, and changes may be
reported among them. What stays is what was listed, as the last delta about it says
(`Index.relist_exact`); what was cached or listed before that `init` does not matter. Each key that
goes is told of once, with the object that was cached.
-/

/-- The last of some items that have a property. -/
def LastWith {β : Type} (property : β → Prop) (items : List β) (last : β) : Prop :=
  ∃ early late, items = early ++ last :: late ∧ property last ∧ ∀ later ∈ late, ¬property later

theorem lastWith_concat {β : Type} {property : β → Prop} {items : List β} {item last : β} :
    LastWith property (items ++ [item]) last ↔
      property item ∧ last = item ∨ ¬property item ∧ LastWith property items last := by
  constructor
  · rintro ⟨early, late, split, holds, later⟩
    rcases late.eq_nil_or_concat with rfl | ⟨between, final, rfl⟩
    · obtain ⟨_, same⟩ := List.append_inj' split rfl
      cases same
      exact .inl ⟨holds, rfl⟩
    · rw [List.concat_eq_append, ← List.cons_append, ← List.append_assoc] at split
      obtain ⟨same, ends⟩ := List.append_inj' split rfl
      cases ends
      rw [List.concat_eq_append, List.forall_mem_append] at later
      exact .inr ⟨by simpa using later.2, early, between, same, holds, later.1⟩
  · rintro (⟨holds, rfl⟩ | ⟨fails, early, late, rfl, holds, later⟩)
    · exact ⟨items, [], rfl, holds, by simp⟩
    · refine ⟨early, late ++ [item], by simp, holds, ?_⟩
      rw [List.forall_mem_append]
      exact ⟨later, by simpa using fails⟩

theorem exists_lastWith {β : Type} {property : β → Prop} {items : List β}
    (some_item : ∃ item ∈ items, property item) : ∃ last, LastWith property items last := by
  induction items using List.reverseRecOn with
  | nil => simp at some_item
  | append_singleton items item ih =>
      by_cases here : property item
      · exact ⟨item, lastWith_concat.mpr (.inl ⟨here, rfl⟩)⟩
      · have before : ∃ item ∈ items, property item := by
          obtain ⟨found, member, holds⟩ := some_item
          rcases List.mem_append.mp member with member | member
          · exact ⟨found, member, holds⟩
          · rw [List.mem_singleton.mp member] at holds
            exact absurd holds here
        obtain ⟨last, found⟩ := ih before
        exact ⟨last, lastWith_concat.mpr (.inr ⟨here, found⟩)⟩

variable {α : Type}

namespace Delta

/-- The object that a delta reports on. -/
def reported? : Delta α → Option α
  | .applied object => some object
  | .initApplied object => some object
  | .deleted object => some object
  | _ => none

variable [Resource α]

def IsAbout (delta : Delta α) (key : Key) : Prop :=
  ∃ object, delta.reported? = some object ∧ Resource.key object = .ok key

/-- Whether an object with this key was listed. -/
def Listed (deltas : List (Delta α)) (key : Key) : Prop :=
  ∃ object, .initApplied object ∈ deltas ∧ Resource.key object = .ok key

/-- The last delta about a key shows this object under it. -/
def Leaves (deltas : List (Delta α)) (key : Key) (object : α) : Prop :=
  ∃ last, LastWith (IsAbout · key) deltas last ∧ last.shown? = some object

theorem Listed.exists_last {deltas : List (Delta α)} {key : Key} (listed : Listed deltas key) :
    ∃ last, LastWith (IsAbout · key) deltas last := by
  obtain ⟨object, member, own⟩ := listed
  exact exists_lastWith ⟨_, member, object, rfl, own⟩

end Delta

variable [Resource α]

instance (note : Notification α) (key : Key) : Decidable (note.IsAbout key) :=
  match own : Resource.key note.object with
  | .ok place => decidable_of_iff (place = key) (by simp [Notification.IsAbout, own])
  | .error _ => isFalse (by simp [Notification.IsAbout, own])

namespace Index

variable {index after : Index α} {delta : Delta α} {key : Key}

theorem getElem?_step_about (about : delta.IsAbout key) :
    (index.step delta).1.items[key]? = delta.shown? := by
  obtain ⟨object, reported, own⟩ := about
  cases delta with
  | applied given =>
      cases reported
      rw [items_step_applied index own]
      exact Std.ExtTreeMap.getElem?_insert_self
  | initApplied given =>
      cases reported
      simp only [step]
      rw [items_upsert _ own]
      exact Std.ExtTreeMap.getElem?_insert_self
  | deleted gone =>
      cases reported
      rw [items_step_deleted index own]
      exact Std.ExtTreeMap.getElem?_erase_self
  | init => contradiction
  | initDone => contradiction

theorem getElem?_upsert_other {object : α} (other : Resource.key object ≠ .ok key) :
    (index.upsert object).1.items[key]? = index.items[key]? := by
  cases own : Resource.key object with
  | error fault => simp only [upsert, own]
  | ok place =>
      have differ : place ≠ key := by rintro rfl; exact other own
      rw [items_upsert _ own]
      simp [Std.ExtTreeMap.getElem?_insert, differ]

theorem getElem?_step_other (other : ¬delta.IsAbout key) (goesOn : delta ≠ .initDone) :
    (index.step delta).1.items[key]? = index.items[key]? := by
  have differs {object : α} (reported : delta.reported? = some object) :
      Resource.key object ≠ .ok key := fun own => other ⟨object, reported, own⟩
  cases delta with
  | applied given => exact getElem?_upsert_other (differs rfl)
  | initApplied given =>
      rw [← items_see index given]
      exact getElem?_upsert_other (differs rfl)
  | deleted gone =>
      cases own : Resource.key gone with
      | error fault => simp only [step, own]
      | ok place =>
          have differ : place ≠ key := by rintro rfl; exact differs rfl own
          rw [items_step_deleted index own]
          simp [Std.ExtTreeMap.getElem?_erase, differ]
  | init => rfl
  | initDone => contradiction

theorem listing_upsert_eq (index : Index α) (object : α) :
    (index.upsert object).1.listing = index.listing := by
  cases own : Resource.key object with
  | ok place => exact index.listing_upsert own
  | error fault => simp only [upsert, own]

theorem listing_step_deleted (index : Index α) (object : α) :
    (index.step (.deleted object)).1.listing = index.listing := by
  simp only [step]
  cases Resource.key object with
  | error fault => rfl
  | ok place => exact (index.remove_frame place).1

theorem listing_step_initDone (index : Index α) : (index.step .initDone).1.listing = none := by
  cases opened : index.listing with
  | none => simp only [step, closeListing, opened]
  | some seen =>
      rw [step_initDone opened]
      exact (removeAll_frame { index with listing := none } _).1

theorem listing_see (index : Index α) (object : α) :
    (index.see object).listing.isSome = index.listing.isSome := by
  unfold see
  cases opened : index.listing <;> cases Resource.key object <;> simp [opened]

/-- What holds of an index after the deltas since the last `init`. -/
structure Relisting (index : Index α) (during : List (Delta α)) : Prop where
  listing : ∃ seen, index.listing = some seen ∧ ∀ key, key ∈ seen ↔ Delta.Listed during key
  items (key : Key) (last : Delta α) (told : LastWith (Delta.IsAbout · key) during last) :
    index.items[key]? = last.shown?

theorem relisting_init (index : Index α) : (index.step .init).1.Relisting [] where
  listing := ⟨∅, rfl, by simp [Delta.Listed]⟩
  items := by
    rintro key last ⟨early, late, split, _⟩
    simp at split

theorem Relisting.step {during : List (Delta α)} (relisting : index.Relisting during)
    (notAgain : delta ≠ .init) (goesOn : delta ≠ .initDone) :
    (index.step delta).1.Relisting (during ++ [delta]) where
  listing := by
    obtain ⟨seen, opened, named⟩ := relisting.listing
    -- A delta that lists nothing leaves the keys that were seen.
    have kept (same : (index.step delta).1.listing = index.listing)
        (silent : ∀ object, delta ≠ .initApplied object) :
        ∃ seen, (index.step delta).1.listing = some seen ∧
          ∀ key, key ∈ seen ↔ Delta.Listed (during ++ [delta]) key := by
      refine ⟨seen, same.trans opened, fun key => (named key).trans ?_⟩
      simp [Delta.Listed, Ne.symm (silent _)]
    cases delta with
    | applied object => exact kept (index.listing_upsert_eq object) (by simp)
    | deleted object => exact kept (index.listing_step_deleted object) (by simp)
    | init => contradiction
    | initDone => contradiction
    | initApplied object =>
        have through : (index.step (.initApplied object)).1.listing = (index.see object).listing :=
          (index.see object).listing_upsert_eq object
        cases own : Resource.key object with
        | error fault =>
            refine ⟨seen, ?_, fun key => (named key).trans ?_⟩
            · rw [through]
              simp only [see, own, opened]
            · simp [Delta.Listed, or_and_right, exists_or, own]
        | ok place =>
            refine ⟨seen.insert place, ?_, fun key => ?_⟩
            · rw [through]
              simp only [see, own, opened]
            · simp only [Std.ExtTreeSet.mem_insert, Std.LawfulEqOrd.compare_eq_iff_eq, named key,
                Delta.Listed, List.mem_append, List.mem_singleton, or_and_right, exists_or,
                Delta.initApplied.injEq, exists_eq_left, own, Except.ok.injEq]
              exact or_comm
  items := by
    intro key last told
    rcases lastWith_concat.mp told with ⟨about, rfl⟩ | ⟨other, before⟩
    · exact getElem?_step_about about
    · rw [getElem?_step_other other goesOn]
      exact relisting.items key last before

theorem Relisting.steps {during rest : List (Delta α)} (relisting : index.Relisting during)
    (notAgain : .init ∉ rest) (goesOn : .initDone ∉ rest) :
    (index.steps rest).1.Relisting (during ++ rest) := by
  induction rest generalizing index during with
  | nil => rwa [List.append_nil]
  | cons delta rest ih =>
      simp only [List.mem_cons, not_or] at notAgain goesOn
      have first := relisting.step (Ne.symm notAgain.1) (Ne.symm goesOn.1)
      have later := ih first notAgain.2 goesOn.2
      rwa [List.append_assoc] at later

theorem relisting_since (index : Index α) (before : List (Delta α)) {during : List (Delta α)}
    (notAgain : .init ∉ during) (goesOn : .initDone ∉ during) :
    (index.steps (before ++ .init :: during)).1.Relisting during := by
  rw [steps_append]
  exact (relisting_init _).steps notAgain goesOn

/-- An index is in the middle of a listing only if there was an `init` and no `initDone` since. -/
theorem exists_init_of_listing (deltas : List (Delta α))
    (opened : (({} : Index α).steps deltas).1.listing.isSome = true) :
    ∃ before during, deltas = before ++ .init :: during ∧ .initDone ∉ during := by
  induction deltas using List.reverseRecOn with
  | nil => contradiction
  | append_singleton deltas delta ih =>
      rw [steps_append] at opened
      have goOn (same : ((({} : Index α).steps deltas).1.step delta).1.listing.isSome =
          (({} : Index α).steps deltas).1.listing.isSome) (goesOn : delta ≠ .initDone) :
          ∃ before during, deltas ++ [delta] = before ++ .init :: during ∧ .initDone ∉ during := by
        obtain ⟨before, during, rfl, unended⟩ := ih (same.symm.trans opened)
        exact ⟨before, during ++ [delta], by simp, by simp [unended, Ne.symm goesOn]⟩
      cases delta with
      | applied object => exact goOn (by rw [step, listing_upsert_eq]) (by simp)
      | deleted object => exact goOn (by rw [listing_step_deleted]) (by simp)
      | initApplied object => exact goOn (by rw [step, listing_upsert_eq, listing_see]) (by simp)
      | init => exact ⟨deltas, [], rfl, by simp⟩
      | initDone =>
          simp only [steps, listing_step_initDone] at opened
          contradiction

/-! What the close of a listing tells. -/

theorem Takes.closed {notes : List (Notification α)} {seen : Std.ExtTreeSet Key}
    (took : index.Takes .initDone after notes) (opened : index.listing = some seen) :
    ∃ stale, stale.Perm (index.unlisted seen) ∧ (after, notes) = index.closeInOrder stale := by
  cases took with
  | step => exact ⟨_, .refl _, step_initDone opened⟩
  | @close other stale again order =>
      obtain rfl : other = seen := Option.some.inj (again.symm.trans opened)
      exact ⟨stale, order, rfl⟩

/-- Every key of the list is told of once. -/
theorem filter_told {items : Std.ExtTreeMap Key α} (keyed : Keyed items) {keys : List Key}
    (distinct : keys.Nodup) (key : Key) :
    (keys.filterMap fun place => items[place]?.map Notification.deleted).filter
        (fun note => decide (note.IsAbout key)) =
      if key ∈ keys then (items[key]?.map Notification.deleted).toList else [] := by
  induction keys with
  | nil => rfl
  | cons place rest ih =>
      obtain ⟨other, distinct⟩ := List.nodup_cons.mp distinct
      have later := ih distinct
      cases present : items[place]? with
      | none =>
          rw [List.filterMap_cons_none (by simp [present]), later]
          by_cases same : key = place
          · subst same
            simp [present]
          · simp [same]
      | some object =>
          have own := keyed place object present
          rw [List.filterMap_cons_some (by simp [present]; rfl)]
          by_cases same : key = place
          · subst same
            have about : (Notification.deleted object).IsAbout key := own
            rw [List.filter_cons_of_pos (by simpa using about), later]
            simp [other, present]
          · have silent : ¬(Notification.deleted object).IsAbout key := by
              intro about
              exact same (Except.ok.inj (about.symm.trans own))
            rw [List.filter_cons_of_neg (by simpa using silent), later]
            simp [same]

theorem Takes.getElem?_relisted {notes : List (Notification α)} {during : List (Delta α)}
    (took : index.Takes .initDone after notes) (relisting : index.Relisting during)
    (consistent : index.Consistent) (key : Key) (object : α) :
    after.items[key]? = some object ↔ Delta.Listed during key ∧ Delta.Leaves during key object := by
  obtain ⟨seen, opened, named⟩ := relisting.listing
  have kept : after.items[key]? = if key ∈ seen then index.items[key]? else none := by
    rw [(took.step_eq consistent).1]
    exact getElem?_closeListing index opened key
  rw [kept]
  constructor
  · intro found
    split at found
    · next listed =>
        have listed := (named key).mp listed
        obtain ⟨last, about⟩ := listed.exists_last
        exact ⟨listed, last, about, (relisting.items key last about).symm.trans found⟩
    · contradiction
  · rintro ⟨listed, last, about, shows⟩
    rw [if_pos ((named key).mpr listed), relisting.items key last about, shows]

/-- A close tells of nothing but what goes, once for each key. -/
theorem Takes.tells_gone {notes : List (Notification α)} {seen : Std.ExtTreeSet Key}
    (took : index.Takes .initDone after notes) (opened : index.listing = some seen)
    (keyed : Keyed index.items) :
    (∀ note ∈ notes, ∃ key object, note = .deleted object ∧ note.IsAbout key) ∧
    ∀ key, notes.filter (fun note => decide (note.IsAbout key)) =
      match index.items[key]?, after.items[key]? with
      | some object, none => [.deleted object]
      | _, _ => [] := by
  obtain ⟨stale, order, same⟩ := took.closed opened
  have distinct : stale.Nodup := order.nodup_iff.mpr (index.nodup_unlisted seen)
  have told : notes = stale.filterMap fun key => index.items[key]?.map .deleted :=
    (congrArg Prod.snd same).trans (notes_removeAll { index with listing := none } distinct)
  have left (key : Key) :
      after.items[key]? = if key ∈ stale then none else index.items[key]? := by
    rw [show after = (index.closeInOrder stale).1 from congrArg Prod.fst same]
    exact getElem?_removeAll { index with listing := none } stale key
  rw [told]
  refine ⟨fun note member => ?_, fun key => ?_⟩
  · obtain ⟨key, _, gone⟩ := List.mem_filterMap.mp member
    obtain ⟨object, present, rfl⟩ := Option.map_eq_some_iff.mp gone
    exact ⟨key, object, rfl, keyed key object present⟩
  · rw [filter_told keyed distinct, left]
    by_cases goes : key ∈ stale
    · cases present : index.items[key]? <;> simp [goes]
    · cases present : index.items[key]? <;> simp [goes]

theorem step_initDone_of_none (closed : index.listing = none) :
    index.step .initDone = ({ index with synced := true }, []) := by
  simp only [step, closeListing, closed]

theorem applyAll_initDone {batches : List (List (Delta α))} {deltas : List (Delta α)}
    (cut : batches.flatten = deltas ++ [.initDone]) :
    (({} : Index α).applyAll batches).items =
        ((({} : Index α).steps deltas).1.step .initDone).1.items ∧
      ({} : Index α).notesAll batches = (({} : Index α).steps deltas).2 ++
        ((({} : Index α).steps deltas).1.step .initDone).2 := by
  rw [applyAll_eq, notesAll_eq, cut, steps_append]
  simp [steps, withEpoch]

theorem getElem?_applyAll_initDone {batches : List (List (Delta α))} {before during : List (Delta α)}
    (cut : batches.flatten = before ++ .init :: during ++ [.initDone])
    (notAgain : .init ∉ during) (goesOn : .initDone ∉ during) (key : Key) (object : α) :
    (({} : Index α).applyAll batches).items[key]? = some object ↔
      Delta.Listed during key ∧ Delta.Leaves during key object := by
  rw [(applyAll_initDone cut).1]
  exact Takes.getElem?_relisted (.step .initDone) (relisting_since {} before notAgain goesOn)
    (Consistent.empty.steps _) key object

/-- A cache after a listing, in whatever batches the deltas came. A key is cached exactly if it was
listed since the last `init` and the last delta about it since then is no deletion, and it is bound to
the object of that delta. The `initDone` tells of nothing but what goes, once for each key, with the
object that was cached, in whatever order it takes them. What was listed before another `init` does
not matter. An `initDone` that ends no listing changes no object and tells nothing. -/
theorem relist_exact :
    (∀ (batches : List (List (Delta α))) (before during : List (Delta α)),
      batches.flatten = before ++ .init :: during ++ [.initDone] →
      .init ∉ during → .initDone ∉ during →
      let index := ({} : Index α).applyAll batches
      let opened := (({} : Index α).steps (before ++ .init :: during)).1
      (∀ key object, index.items[key]? = some object ↔
        Delta.Listed during key ∧ Delta.Leaves during key object) ∧
      ({} : Index α).notesAll batches =
        (({} : Index α).steps (before ++ .init :: during)).2 ++ (opened.step .initDone).2 ∧
      (∀ after notes, opened.Takes .initDone after notes →
        after.items = index.items ∧
        (∀ note ∈ notes, ∃ key object, note = .deleted object ∧ note.IsAbout key) ∧
        ∀ key, notes.filter (fun note => decide (note.IsAbout key)) =
          match opened.items[key]?, index.items[key]? with
          | some object, none => [.deleted object]
          | _, _ => []) ∧
      ∀ (again : List (List (Delta α))) (half : List (Delta α)),
        again.flatten = before ++ .init :: half ++ .init :: during ++ [.initDone] →
        (({} : Index α).applyAll again).items = index.items) ∧
    ∀ (batches : List (List (Delta α))) (deltas : List (Delta α)),
      batches.flatten = deltas ++ [.initDone] →
      (∀ before during, deltas = before ++ .init :: during → .initDone ∈ during) →
      (({} : Index α).applyAll batches).items = (({} : Index α).steps deltas).1.items ∧
      ({} : Index α).notesAll batches = (({} : Index α).steps deltas).2 := by
  constructor
  · intro batches before during cut notAgain goesOn index opened
    have consistent : opened.Consistent := Consistent.empty.steps _
    have relisting : opened.Relisting during := relisting_since {} before notAgain goesOn
    obtain ⟨items, notes⟩ := applyAll_initDone cut
    have exactly := getElem?_applyAll_initDone cut notAgain goesOn
    refine ⟨exactly, notes, fun after notes took => ?_, fun again half cutAgain => ?_⟩
    · obtain ⟨seen, listing, _⟩ := relisting.listing
      obtain ⟨gone, told⟩ := took.tells_gone listing consistent.keyed
      have same : after.items = index.items := by
        rw [(took.step_eq consistent).1]
        exact items.symm
      rw [same] at told
      exact ⟨same, gone, told⟩
    · have split : again.flatten = (before ++ .init :: half) ++ .init :: during ++ [.initDone] := by
        simpa using cutAgain
      apply Std.ExtTreeMap.ext_getElem?
      intro key
      apply Option.ext
      intro object
      rw [getElem?_applyAll_initDone split notAgain goesOn, exactly]
  · intro batches deltas cut ended
    have closed : (({} : Index α).steps deltas).1.listing = none := by
      cases listing : (({} : Index α).steps deltas).1.listing with
      | none => rfl
      | some seen =>
          obtain ⟨before, during, split, unended⟩ :=
            exists_init_of_listing deltas (by rw [listing]; rfl)
          exact absurd (ended before during split) unended
    obtain ⟨items, notes⟩ := applyAll_initDone cut
    rw [step_initDone_of_none closed] at items notes
    exact ⟨items, by rw [notes, List.append_nil]⟩

/-- A listing starts over; of two services in it one is replaced, and one was never listed. -/
theorem relist_exact_interrupted :
    let service (name uid : String) : Service :=
      { metadata := { name := some name, uid := some uid } }
    let before : List (Delta Service) :=
      [.applied (service "old" "1"), .init, .initApplied (service "half" "1")]
    let during : List (Delta Service) :=
      [.initApplied (service "web" "1"), .deleted (service "web" "1"),
        .applied (service "web" "2"), .applied (service "new" "1"), .initApplied {}]
    let batches : List (List (Delta Service)) := [before, [.init], during ++ [.initDone]]
    let index := ({} : Index Service).applyAll batches
    let opened := (({} : Index Service).steps (before ++ .init :: during)).1
    batches.flatten = before ++ .init :: during ++ [.initDone] ∧
    index.items[(⟨none, "web"⟩ : Key)]? = some (service "web" "2") ∧
    (opened.step .initDone).2.filter (fun note => decide (note.IsAbout ⟨none, "half"⟩)) =
      [.deleted (service "half" "1")] ∧
    (({} : Index Service).applyAll [[.applied (service "old" "1"), .initDone]]).items =
      (({} : Index Service).steps [.applied (service "old" "1")]).1.items := by
  intro service before during batches index opened
  obtain ⟨exactly, _, closes, _⟩ :=
    relist_exact.1 batches before during rfl (by simp [during]) (by simp [during])
  have told := (closes _ _ (.step .initDone)).2.2 ⟨none, "half"⟩
  have listed : Delta.Listed during ⟨none, "web"⟩ := ⟨service "web" "1", by simp [during], rfl⟩
  have later : ∀ delta ∈ [.applied (service "new" "1"), .initApplied {}],
      ¬Delta.IsAbout delta ⟨none, "web"⟩ := by
    rintro delta member ⟨object, reported, own⟩
    simp only [List.mem_cons, List.not_mem_nil, or_false] at member
    rcases member with rfl | rfl <;> cases reported <;> exact absurd own (by decide)
  have never : ∀ earlier rest : List (Delta Service),
      [.applied (service "old" "1")] = earlier ++ .init :: rest → .initDone ∈ rest := by
    intro earlier rest split
    have member : (.init : Delta Service) ∈ [.applied (service "old" "1")] := by simp [split]
    simp at member
  refine ⟨rfl, (exactly _ _).mpr ⟨listed, .applied (service "web" "2"), ?_, rfl⟩, told.trans ?_,
    (relist_exact.2 [[.applied (service "old" "1"), .initDone]] _ rfl never).1⟩
  · exact ⟨[.initApplied (service "web" "1"), .deleted (service "web" "1")], _, rfl,
      ⟨_, rfl, rfl⟩, later⟩
  · have cached : opened.items[(⟨none, "half"⟩ : Key)]? = some (service "half" "1") := by
      decide +kernel
    have gone : index.items[(⟨none, "half"⟩ : Key)]? = none := by decide +kernel
    rw [cached, gone]

end Index

end ReconcileLoop

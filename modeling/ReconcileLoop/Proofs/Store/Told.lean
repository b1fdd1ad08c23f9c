import ReconcileLoop.Proofs.Cache.Listing
import ReconcileLoop.Proofs.Object.Laws
import ReconcileLoop.Proofs.Store.Edits

namespace ReconcileLoop

/-! # The feed tells what happens to a store

An operation writes one object, removes one, or does nothing, and the feed tells of it. So whoever
holds the objects of a store and takes in what the feed told since then holds the objects that it
has now: `Store.Tells` says this of two states of a store.
-/

variable {α : Type} [Resource α]

namespace Store

inductive Shift (before after : Store α) : Prop where
  | still (objects : after.objects = before.objects) (feed : after.feed = before.feed)
  | written (key : Key) (object : α) (own : Resource.key object = .ok key)
      (objects : after.objects = before.objects.insert key object)
      (feed : after.feed = before.feed ++ [.applied object])
  | removed (key : Key) (gone : α) (present : before.objects[key]? = some gone)
      (objects : after.objects = before.objects.erase key)
      (feed : after.feed = before.feed ++ [.deleted gone])

theorem Shift.of_edited {before middle after : Store α} (nothing : before.Edited [] middle)
    (shift : middle.Shift after) : before.Shift after := by
  have objects := nothing.objects_eq
  have feed : middle.feed = before.feed := by simpa using nothing.feed
  cases shift with
  | still same told => exact .still (same.trans objects) (told.trans feed)
  | written key object own same told => exact .written key object own (objects ▸ same) (feed ▸ told)
  | removed key gone present same told =>
      exact .removed key gone (objects ▸ present) (objects ▸ same) (feed ▸ told)

theorem Shift.of_attempt {β : Type} {store : Store α} {op : Op}
    {run : Store α → Except StoreError β × Store α}
    (runs : ∀ counted : Store α, counted.objects = store.objects →
      counted.Shift (run counted).2) :
    store.Shift (store.attempt op run).2 := by
  cases tried : store.attempt op run with
  | mk result after =>
      rcases attempt_cases tried with ⟨_, _, nothing⟩ | ⟨counted, nothing, asked⟩
      · exact .of_edited nothing (.still rfl rfl)
      · have shift := runs counted nothing.objects_eq
        rw [asked] at shift
        exact .of_edited nothing shift

theorem write_shift (store : Store α) {key : Key} {object : α}
    (own : Resource.key object = .ok key) : store.Shift (store.write key object).2 :=
  .written key (store.stamp object) ((store.stampOf_stamp object).key_eq.trans own) rfl rfl

theorem keyOf_eq_ok {object : α} {key : Key} (named : keyOf object = .ok key) :
    Resource.key object = .ok key := by
  unfold keyOf at named
  split at named
  · next found =>
      cases named
      exact found
  · contradiction

theorem put_shift (store : Store α) (object : α) : store.Shift (store.put object).2 := by
  unfold put
  cases named : keyOf object with
  | error error => exact .still rfl rfl
  | ok key => exact store.write_shift (keyOf_eq_ok named)

theorem create_shift (store : Store α) (object : α) : store.Shift (store.create object).2 := by
  unfold create
  cases named : keyOf object with
  | error error => exact .still rfl rfl
  | ok key =>
      refine .of_attempt fun counted _ => ?_
      cases present : counted.objects[key]? with
      | some held => simpa only [present] using .still rfl rfl
      | none => simpa only [present] using counted.write_shift (keyOf_eq_ok named)

theorem updateStatus_shift [LawfulResource α] (store : Store α) (object : α)
    (keyed : Keyed store.objects) : store.Shift (store.updateStatus object).2 := by
  unfold updateStatus
  cases named : keyOf object with
  | error error => exact .still rfl rfl
  | ok key =>
      refine .of_attempt fun counted same => ?_
      cases present : counted.objects[key]? with
      | none => simpa only [present] using .still rfl rfl
      | some current =>
          cases replaced : Resource.replaceStatus current object with
          | none => simpa only [present, replaced] using .still rfl rfl
          | some updated =>
              have own : Resource.key updated = .ok key := by
                rw [Resource.key, LawfulResource.metadata_replaceStatus replaced]
                exact keyed key current (same ▸ present)
              simpa only [present, replaced] using counted.write_shift own

theorem remove_shift (store : Store α) (key : Key) : store.Shift (store.remove key).2 := by
  unfold remove
  cases present : store.objects[key]? with
  | none => exact .still rfl rfl
  | some gone => exact .removed key gone present rfl rfl

theorem delete_shift (store : Store α) (key : Key) : store.Shift (store.delete key).2 := by
  refine .of_attempt fun counted _ => ?_
  have shift := counted.remove_shift key
  cases removed : counted.remove key with
  | mk gone? after =>
      rw [removed] at shift
      cases gone? with
      | none => exact .still rfl rfl
      | some gone => simpa only [removed] using shift

theorem Shift.keyed {before after : Store α} (shift : before.Shift after)
    (keyed : Keyed before.objects) : Keyed after.objects := by
  cases shift with
  | still objects => rwa [objects]
  | written key object own objects => rw [objects]; exact keyed.insert own
  | removed key gone present objects => rw [objects]; exact keyed.erase key

/-- What the feed tells from one state of a store to a later one leads from the objects of the one
to those of the other. -/
def Tells (before after : Store α) : Prop :=
  ∃ told, after.feed = before.feed ++ told ∧
    ∀ index : Index α, index.items = before.objects →
      (index.steps told).1.items = after.objects

theorem Tells.refl (store : Store α) : store.Tells store :=
  ⟨[], by simp, fun _ same => same⟩

theorem Tells.trans {before middle after : Store α} (start : before.Tells middle)
    (finish : middle.Tells after) : before.Tells after := by
  obtain ⟨first, feed, leads⟩ := start
  obtain ⟨second, later, goes_on⟩ := finish
  refine ⟨first ++ second, by rw [later, feed, List.append_assoc], fun index same => ?_⟩
  rw [Index.steps_append]
  exact goes_on _ (leads index same)

theorem Shift.tells {before after : Store α} (shift : before.Shift after)
    (keyed : Keyed before.objects) : before.Tells after := by
  cases shift with
  | still objects feed => exact ⟨[], by simp [feed], fun _ same => same.trans objects.symm⟩
  | written key object own objects feed =>
      refine ⟨[.applied object], feed, fun index same => ?_⟩
      rw [objects, ← same]
      exact index.items_step_applied own
  | removed key gone present objects feed =>
      refine ⟨[.deleted gone], feed, fun index same => ?_⟩
      rw [objects, ← same]
      exact index.items_step_deleted (keyed key gone present)

end Store

theorem Edits.items_steps {items after : Std.ExtTreeMap Key α} {edits : List (Edit α)}
    (run : Edits items edits after) (keyed : Keyed items)
    (own : ∀ key made, .created key made ∈ edits → Resource.key made = .ok key)
    (index : Index α) (same : index.items = items) :
    (index.steps (edits.map Edit.delta)).1.items = after := by
  induction run generalizing index with
  | done => exact same
  | @removed items key gone rest after present _ ih =>
      refine ih (keyed.erase key) (fun place made member => ?_) _ ?_
      · exact own place made (List.mem_cons_of_mem _ member)
      · rw [← same]
        exact index.items_step_deleted (keyed key gone present)
  | @created items key made rest after _ _ ih =>
      have here := own key made (List.mem_cons_self ..)
      refine ih (keyed.insert here) (fun place other member => ?_) _ ?_
      · exact own place other (List.mem_cons_of_mem _ member)
      · rw [← same]
        exact index.items_step_applied here

theorem Edits.keyed {items after : Std.ExtTreeMap Key α} {edits : List (Edit α)}
    (run : Edits items edits after) (keyed : Keyed items)
    (own : ∀ key made, .created key made ∈ edits → Resource.key made = .ok key) : Keyed after := by
  induction run with
  | done => exact keyed
  | @removed items key gone rest after _ _ ih =>
      exact ih (keyed.erase key) fun place made member => own place made (List.mem_cons_of_mem _ member)
  | @created items key made rest after _ _ ih =>
      exact ih (keyed.insert (own key made (List.mem_cons_self ..))) fun place other member =>
        own place other (List.mem_cons_of_mem _ member)

theorem Store.Edited.tells {before after : Store α} {edits : List (Edit α)}
    (run : before.Edited edits after) (keyed : Keyed before.objects)
    (own : ∀ key made, .created key made ∈ edits → Resource.key made = .ok key) :
    before.Tells after :=
  ⟨_, run.feed, run.objects.items_steps keyed own⟩

end ReconcileLoop

import ReconcileLoop.Proofs.Cache.Chronicle

namespace ReconcileLoop

/-! # The first listing is told in full

An object that a cache has never seen before is told as added, and nothing else brings an object
under a key that had none (`Replay.getElem?_of_never_added`). So once a cache has signalled that it
has synced, every object that it was shown before the first `initDone` has been handed on under its
key (`Chronicle.Kept.told_of_synced`).
-/

variable {α : Type} [Resource α]

/-- Under a key that no notification adds, nothing appears. -/
theorem Replay.getElem?_of_never_added {items after : Std.ExtTreeMap Key α}
    {notes : List (Notification α)} {key : Key} (replay : Replay items notes after)
    (absent : items[key]? = none)
    (never : ∀ object, .added object ∈ notes → Resource.key object ≠ .ok key) :
    after[key]? = none := by
  induction replay with
  | done => exact absent
  | @added _ own object _ _ keyed _ _ ih =>
      have differ : own ≠ key := by
        rintro rfl
        exact never object (List.mem_cons_self ..) keyed
      refine ih ?_ fun other member => never other (List.mem_cons_of_mem _ member)
      simp [Std.ExtTreeMap.getElem?_insert, differ, absent]
  | @updated _ own _ _ _ _ keyed present _ ih =>
      have differ : own ≠ key := by
        rintro rfl
        rw [absent] at present
        contradiction
      refine ih ?_ fun other member => never other (List.mem_cons_of_mem _ member)
      simp [Std.ExtTreeMap.getElem?_insert, differ, absent]
  | @deleted _ own _ _ _ keyed _ ih =>
      refine ih ?_ fun other member => never other (List.mem_cons_of_mem _ member)
      rw [Std.ExtTreeMap.getElem?_erase]
      split
      · rfl
      · exact absent

namespace Index

theorem added_of_shown {index : Index α} {deltas : List (Delta α)} {delta : Delta α} {key : Key}
    {object : α} (keyed : Keyed index.items) (absent : index.items[key]? = none)
    (member : delta ∈ deltas) (shown : delta.shown? = some object)
    (own : Resource.key object = .ok key) :
    ∃ added, .added added ∈ (index.steps deltas).2 ∧ Resource.key added = .ok key := by
  obtain ⟨early, late, rfl⟩ := List.append_of_mem member
  have about : delta.IsAbout key := by
    cases delta with
    | applied given => exact ⟨object, shown, own⟩
    | initApplied given => exact ⟨object, shown, own⟩
    | deleted gone => contradiction
    | init => contradiction
    | initDone => contradiction
  have whole : early ++ delta :: late = (early ++ [delta]) ++ late := by simp
  have present : (index.steps (early ++ [delta])).1.items[key]? = some object := by
    rw [steps_append]
    exact (getElem?_step_about about).trans shown
  by_contra never
  push Not at never
  have nothing := (index.steps_replay (early ++ [delta]) keyed).getElem?_of_never_added absent
    fun added told => never added (by
      rw [whole, steps_append]
      exact List.mem_append_left _ told)
  rw [present] at nothing
  contradiction

theorem notes_calls (index : Index α) (batches : List (List (Delta α))) :
    (index.calls batches).map Prod.fst = (index.steps batches.flatten).2 := by
  rw [← notesAll_eq]
  induction batches generalizing index with
  | nil => rfl
  | cons batch rest ih =>
      rw [calls, List.map_append, ih, List.map_map, notesAll]
      congr 1
      exact List.map_id _

end Index

namespace Chronicle

omit [Resource α] in
/-- Whether an object was shown before the first listing was complete. -/
def Initial (chronicle : Chronicle α) (object : α) : Prop :=
  ∃ before after delta, chronicle.sent = before ++ .initDone :: after ∧ .initDone ∉ before ∧
    delta ∈ before ∧ delta.shown? = some object

/-- Once the sync signal is set, what was shown initially has been handed on as added. -/
theorem Kept.told_of_synced {chronicle : Chronicle α} (kept : chronicle.Kept)
    (synced : chronicle.ingest.synced = true) {object : α} {key : Key}
    (initial : chronicle.Initial object) (own : Resource.key object = .ok key) :
    ∃ added view, (.added added, view) ∈ chronicle.handed ∧ Resource.key added = .ok key := by
  obtain ⟨early, batch, late, same, listed, made⟩ := kept.signal synced
  obtain ⟨before, after, delta, sent, unclosed, member, shown⟩ := initial
  -- Up to the batch that is announced there is an `initDone`, so the initial listing ends there.
  have inside : delta ∈ (early ++ [batch]).flatten := by
    have whole := kept.whole
    rw [same, sent] at whole
    have cut : (early ++ [batch]).flatten ++ (late.flatten ++ chronicle.ingest.channel.buffered) =
        before ++ .initDone :: after := by
      rw [← whole]
      simp
    have closes : .initDone ∈ (early ++ [batch]).flatten := by simp [listed]
    rcases List.append_eq_append_iff.mp cut with ⟨rest, rfl, _⟩ | ⟨rest, split, _⟩
    · exact absurd (List.mem_append_left _ closes) unclosed
    · rw [split]
      exact List.mem_append_left _ member
  obtain ⟨added, told, about⟩ : ∃ added,
      .added added ∈ (({} : Index α).steps (early ++ [batch]).flatten).2 ∧
        Resource.key added = .ok key :=
    Index.added_of_shown Keyed.empty (by simp) inside shown own
  rw [← Index.notes_calls] at told
  obtain ⟨⟨note, view⟩, call, rfl⟩ := List.mem_map.mp told
  exact ⟨added, view, made.subset call, about⟩

end Chronicle

end ReconcileLoop

import ReconcileLoop.Cache.Ingest

namespace ReconcileLoop

/-! # The steps of the task of a cache

The task takes a batch and publishes the view after it, hands a notification on, signals that the
cache has synced, or ends (`Ingest.step?_cases`). Only the first of these changes the view.
-/

namespace Ingest

variable {α : Type}

def pending (ingest : Ingest α) : List (Notification α) :=
  match ingest.stage with
  | .notifying rest => rest
  | _ => []

variable [Resource α]

@[simp] theorem pending_publish (ingest : Ingest α) (batch : List (Delta α)) :
    (ingest.publish batch).pending = (ingest.index.apply batch).2 := rfl

@[simp] theorem index_publish (ingest : Ingest α) (batch : List (Delta α)) :
    (ingest.publish batch).index = (ingest.index.apply batch).1 := rfl

@[simp] theorem snapshot_publish (ingest : Ingest α) (batch : List (Delta α)) :
    (ingest.publish batch).snapshot = (ingest.index.apply batch).1.freeze := rfl

theorem step?_cases {ingest after : Ingest α} {note? : Option (Notification α)}
    (moved : ingest.step? = some (after, note?)) :
    (∃ batch, ingest.stage = .idle ∧ ingest.channel.buffered.take batchLimit = batch ∧ batch ≠ [] ∧
      note? = none ∧ after = ingest.publish batch) ∨
    (∃ note rest, ingest.stage = .notifying (note :: rest) ∧ note? = some note ∧
      after = { ingest with stage := .notifying rest }) ∨
    (ingest.stage = .notifying [] ∧ note? = none ∧
      after = { ingest with stage := .idle, synced := ingest.synced || ingest.index.synced }) ∨
    ingest.stage = .idle ∧ ingest.channel.buffered.take batchLimit = [] ∧ note? = none ∧
      after = { ingest with stage := .ended, channel := ingest.channel.closeReceiver } := by
  unfold step? at moved
  split at moved
  · next idle =>
      split at moved
      · next nothing =>
          split at moved
          · contradiction
          · cases moved
            exact .inr (.inr (.inr ⟨idle, nothing, rfl, rfl⟩))
      · next batch arrived =>
          cases moved
          exact .inl ⟨_, idle, rfl, arrived, rfl, rfl⟩
  · next note rest stage =>
      cases moved
      exact .inr (.inl ⟨note, rest, stage, rfl, rfl⟩)
  · next stage =>
      cases moved
      exact .inr (.inr (.inl ⟨stage, rfl, rfl⟩))
  · contradiction

/-- A step of the task publishes a batch once the last one is handed on, or hands on the next
notification and leaves the cache alone. -/
theorem step?_eq_some {ingest after : Ingest α} {note? : Option (Notification α)}
    (moved : ingest.step? = some (after, note?)) :
    (∃ batch, ingest.stage = .idle ∧ note? = none ∧ after = ingest.publish batch) ∨
      (after.index = ingest.index ∧ after.snapshot = ingest.snapshot ∧
        ingest.pending = note?.toList ++ after.pending) := by
  rcases step?_cases moved with ⟨batch, idle, _, _, quiet, rfl⟩ | ⟨note, rest, stage, rfl, rfl⟩ |
    ⟨stage, rfl, rfl⟩ | ⟨stage, _, rfl, rfl⟩
  · exact .inl ⟨batch, idle, quiet, rfl⟩
  · exact .inr ⟨rfl, rfl, by simp [pending, stage]⟩
  · exact .inr ⟨rfl, rfl, by simp [pending, stage]⟩
  · exact .inr ⟨rfl, rfl, by simp [pending, stage]⟩

end Ingest

end ReconcileLoop

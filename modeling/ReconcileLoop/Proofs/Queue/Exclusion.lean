import ReconcileLoop.Controller.CrashPoints

namespace ReconcileLoop

/-! # What a queue hands out is out of the queue

`Queue.Exclusive` says that a queue holds no item twice, and none that is being processed. Every
operation keeps it, as far as the operation gets, and `Getter.step?_queue` says what a task that
gets items does to the queue: it takes the next item, or nothing at all. `WorkQueue.KeepsHeld` is
what all operations have in common that neither hand out an item nor release one, also where they
crash halfway.
-/

namespace Queue

variable {κ : Type} [DecidableEq κ]

/-- No item is in the queue twice, or while it is being processed. -/
structure Exclusive (queue : Queue κ) : Prop where
  ready_nodup : queue.ready.Nodup
  dirty_nodup : queue.dirty.Nodup
  processing_nodup : queue.processing.Nodup
  ready_dirty : ∀ item ∈ queue.ready, item ∈ queue.dirty
  ready_apart : ∀ item ∈ queue.ready, item ∉ queue.processing

omit [DecidableEq κ] in
theorem Exclusive.empty : ({} : Queue κ).Exclusive := by
  constructor <;> simp

omit [DecidableEq κ] in
@[simp] theorem dirty_push (queue : Queue κ) (item : κ) : (queue.push item).dirty = queue.dirty :=
  rfl

omit [DecidableEq κ] in
@[simp] theorem processing_push (queue : Queue κ) (item : κ) :
    (queue.push item).processing = queue.processing := rfl

omit [DecidableEq κ] in
@[simp] theorem down_push (queue : Queue κ) (item : κ) : (queue.push item).down = queue.down := rfl

@[simp] theorem down_add (queue : Queue κ) (item : κ) : (queue.add item).down = queue.down := by
  unfold add
  split
  · rfl
  · split
    · rfl
    · simp only
      split <;> rfl

@[simp] theorem dirty_done (queue : Queue κ) (item : κ) :
    (queue.done item).dirty = queue.dirty := by
  unfold done
  simp only
  split <;> rfl

@[simp] theorem processing_done (queue : Queue κ) (item : κ) :
    (queue.done item).processing = queue.processing.erase item := by
  unfold done
  simp only
  split <;> rfl

@[simp] theorem down_done (queue : Queue κ) (item : κ) : (queue.done item).down = queue.down := by
  unfold done
  simp only
  split <;> rfl

omit [DecidableEq κ] in
@[simp] theorem dirty_shutDown (queue : Queue κ) : queue.shutDown.dirty = [] := rfl

omit [DecidableEq κ] in
@[simp] theorem processing_shutDown (queue : Queue κ) :
    queue.shutDown.processing = queue.processing := rfl

theorem mem_dirty_add_of_mem {queue : Queue κ} {other : κ} (waits : other ∈ queue.dirty)
    (item : κ) : other ∈ (queue.add item).dirty := by
  cases down : queue.down with
  | false => exact (mem_dirty_add down).mpr (.inr waits)
  | true => simpa [add, down] using waits

theorem down_of_take? {queue after : Queue κ} {item : κ}
    (taken : queue.take? = some (item, after)) : after.down = false := by
  have up := (take?_eq_some taken).1
  unfold take? at taken
  split at taken
  · contradiction
  · split at taken
    · contradiction
    · cases taken; exact up

namespace Exclusive

variable {queue : Queue κ}

omit [DecidableEq κ] in
theorem push (exclusive : queue.Exclusive) {item : κ} (absent : item ∉ queue.ready)
    (waits : item ∈ queue.dirty) (free : item ∉ queue.processing) :
    (queue.push item).Exclusive where
  ready_nodup := by
    rw [ready_push, List.nodup_append]
    refine ⟨exclusive.ready_nodup, by simp, ?_⟩
    intro first member second last
    rw [List.mem_singleton] at last
    rintro rfl
    exact absent (last ▸ member)
  dirty_nodup := exclusive.dirty_nodup
  processing_nodup := exclusive.processing_nodup
  ready_dirty := by
    intro other member
    rw [ready_push, List.mem_append, List.mem_singleton] at member
    rcases member with member | rfl
    · exact exclusive.ready_dirty other member
    · exact waits
  ready_apart := by
    intro other member
    rw [ready_push, List.mem_append, List.mem_singleton] at member
    rcases member with member | rfl
    · exact exclusive.ready_apart other member
    · exact free

omit [DecidableEq κ] in
theorem note (exclusive : queue.Exclusive) {item : κ} (clean : item ∉ queue.dirty) (adds : Nat) :
    ({ queue with dirty := item :: queue.dirty, adds } : Queue κ).Exclusive where
  ready_nodup := exclusive.ready_nodup
  dirty_nodup := List.nodup_cons.mpr ⟨clean, exclusive.dirty_nodup⟩
  processing_nodup := exclusive.processing_nodup
  ready_dirty := fun other member => List.mem_cons_of_mem _ (exclusive.ready_dirty other member)
  ready_apart := exclusive.ready_apart

theorem add (exclusive : queue.Exclusive) (item : κ) : (queue.add item).Exclusive := by
  unfold Queue.add
  split
  · exact exclusive
  · split
    · exact exclusive
    · next clean =>
        have noted := exclusive.note clean (queue.adds + 1)
        simp only
        split
        · exact noted
        · next free =>
            exact noted.push (fun member => clean (exclusive.ready_dirty item member))
              (List.mem_cons_self ..) free

theorem free_of_take? (exclusive : queue.Exclusive) {after : Queue κ} {item : κ}
    (taken : queue.take? = some (item, after)) : item ∉ queue.processing := by
  obtain ⟨_, ready, _, _⟩ := take?_eq_some taken
  exact exclusive.ready_apart item (by simp [ready])

theorem take? (exclusive : queue.Exclusive) {after : Queue κ} {item : κ}
    (taken : queue.take? = some (item, after)) : after.Exclusive := by
  have free := exclusive.free_of_take? taken
  obtain ⟨_, ready, dirty, processing⟩ := take?_eq_some taken
  have unique := exclusive.ready_nodup
  rw [ready, List.nodup_cons] at unique
  rw [List.insert_of_not_mem free] at processing
  refine ⟨unique.2, ?_, ?_, ?_, ?_⟩
  · rw [dirty]
    exact exclusive.dirty_nodup.erase item
  · rw [processing]
    exact List.nodup_cons.mpr ⟨free, exclusive.processing_nodup⟩
  · intro other member
    rw [dirty, exclusive.dirty_nodup.mem_erase_iff]
    refine ⟨?_, exclusive.ready_dirty other (by simp [ready, member])⟩
    rintro rfl
    exact unique.1 member
  · intro other member held
    rw [processing, List.mem_cons] at held
    rcases held with rfl | held
    · exact unique.1 member
    · exact exclusive.ready_apart other (by simp [ready, member]) held

theorem done (exclusive : queue.Exclusive) {item : κ} (held : item ∈ queue.processing) :
    (queue.done item).Exclusive := by
  have released : ({ queue with processing := queue.processing.erase item } : Queue κ).Exclusive :=
    { exclusive with
      processing_nodup := exclusive.processing_nodup.erase item
      ready_apart := fun other member still =>
        exclusive.ready_apart other member (List.mem_of_mem_erase still) }
  unfold Queue.done
  simp only
  split
  · next waits =>
      exact released.push (fun member => exclusive.ready_apart item member held) waits.1
        exclusive.processing_nodup.not_mem_erase
  · exact released

omit [DecidableEq κ] in
theorem shutDown (exclusive : queue.Exclusive) : queue.shutDown.Exclusive where
  ready_nodup := List.nodup_nil
  dirty_nodup := List.nodup_nil
  processing_nodup := exclusive.processing_nodup
  ready_dirty := by simp
  ready_apart := by simp

omit [DecidableEq κ] in
theorem withDepth (exclusive : queue.Exclusive) (depth : Option Nat) :
    ({ queue with depth } : Queue κ).Exclusive :=
  { exclusive with }

end Exclusive

@[simp] theorem Shared.queue_add (shared : Shared κ) (item : κ) :
    (shared.add item).queue = shared.queue.add item := rfl

@[simp] theorem Shared.queue_done (shared : Shared κ) (item : κ) :
    (shared.done item).queue = shared.queue.done item := rfl

omit [DecidableEq κ] in
@[simp] theorem Shared.queue_leave (shared : Shared κ) (ticket? : Option Ticket) :
    (shared.leave ticket?).queue = shared.queue := by
  cases ticket? <;> rfl

omit [DecidableEq κ] in
theorem Shared.queue_shutDown (shared : Shared κ) :
    shared.shutDown.queue = shared.queue ∨ shared.shutDown.queue = shared.queue.shutDown := by
  unfold Shared.shutDown
  split
  · exact .inl rfl
  · exact .inr rfl

/-- A task that gets an item leaves the queue alone until it finishes with the item it took. -/
theorem Getter.step?_queue {shared after : Shared κ} {getter next : Getter κ}
    (moved : getter.step? shared = some (after, next)) :
    (∃ item, next = .finished (some item) ∧ shared.queue.take? = some (item, after.queue)) ∨
      after.queue = shared.queue ∧ ∀ item, next ≠ .finished (some item) := by
  cases getter with
  | fresh => cases moved; exact .inr ⟨rfl, by simp⟩
  | joined ticket? =>
      simp only [Getter.step?] at moved
      split at moved
      · cases moved; exact .inr ⟨by simp, by simp⟩
      · split at moved
        · next item queue taken => cases moved; exact .inl ⟨item, rfl, by simpa using taken⟩
        · cases moved; exact .inr ⟨rfl, by simp⟩
  | waiting ticket? =>
      cases ticket? with
      | none => cases moved; exact .inr ⟨rfl, by simp⟩
      | some ticket =>
          simp only [Getter.step?] at moved
          split at moved
          · cases moved; exact .inr ⟨rfl, by simp⟩
          · contradiction
  | finished item? => contradiction

omit [DecidableEq κ] in
def Getter.taken? : Getter κ → Option κ
  | finished item? => item?
  | _ => none

theorem Getter.step?_taken? {shared after : Shared κ} {getter next : Getter κ}
    (moved : getter.step? shared = some (after, next)) :
    (∃ item, next.taken? = some item ∧ shared.queue.take? = some (item, after.queue)) ∨
      next.taken? = none ∧ after.queue = shared.queue := by
  rcases step?_queue moved with ⟨item, rfl, taken⟩ | ⟨same, other⟩
  · exact .inl ⟨item, rfl, taken⟩
  · refine .inr ⟨?_, same⟩
    cases next with
    | finished item? =>
        cases item? with
        | none => rfl
        | some item => exact absurd rfl (other item)
    | fresh => rfl
    | joined ticket? => rfl
    | waiting ticket? => rfl

end Queue

namespace WorkQueue

variable {κ : Type} [DecidableEq κ]

/-- An add that crashes leaves an item that waits but is not ready, or one that is ready. -/
theorem addCrashPoints_cases {queue : WorkQueue κ} {item : κ} {point : CrashPoint (WorkQueue κ)}
    (crashes : point ∈ queue.addCrashPoints item) :
    item ∉ queue.shared.queue.dirty ∧
      (point.left = queue.withItems
          { queue.shared.queue with dirty := item :: queue.shared.queue.dirty } ∨
        point.left = queue.withItems (queue.shared.queue.add item)) := by
  unfold addCrashPoints at crashes
  simp only at crashes
  split at crashes
  · contradiction
  · next fresh =>
      refine ⟨fun waits => fresh (.inr waits), ?_⟩
      rcases List.mem_cons.mp crashes with rfl | crashes
      · exact .inl rfl
      · split at crashes
        · contradiction
        · rw [List.mem_singleton] at crashes
          exact .inr (congrArg CrashPoint.left crashes)

/-- A failure that crashes is counted, and its add was not begun or crashes as well. -/
theorem rateLimitedCrashPoints_cases {queue : WorkQueue κ} {item : κ}
    {point : CrashPoint (WorkQueue κ)} (crashes : point ∈ queue.rateLimitedCrashPoints item) :
    ∃ counted : WorkQueue κ, counted.shared = queue.shared ∧
      (point.left = counted ∨ point ∈ counted.addCrashPoints item) := by
  unfold rateLimitedCrashPoints at crashes
  simp only at crashes
  rcases List.mem_cons.mp crashes with rfl | crashes
  · exact ⟨(queue.backOff item).2, rfl, .inl rfl⟩
  · split at crashes
    · exact ⟨{ (queue.backOff item).2 with retries := queue.retries + 1 }, rfl, .inr crashes⟩
    · contradiction

/-- An add with a delay adds the item at once, or leaves the items alone. -/
theorem shared_addAfter (queue : WorkQueue κ) (item : κ) (delay : Nat) :
    (queue.addAfter item delay).shared = queue.shared ∨
      (queue.addAfter item delay).shared = queue.shared.add item := by
  unfold addAfter
  split
  · exact .inl rfl
  · split
    · exact .inr rfl
    · exact .inl rfl

/-- What an operation does that neither hands out an item nor releases one. -/
structure KeepsHeld (before after : WorkQueue κ) : Prop where
  processing : after.shared.queue.processing = before.shared.queue.processing
  exclusive (exclusive : before.shared.queue.Exclusive) : after.shared.queue.Exclusive

namespace KeepsHeld

variable {before after last : WorkQueue κ}

omit [DecidableEq κ] in
theorem of_queue (same : after.shared.queue = before.shared.queue) : before.KeepsHeld after where
  processing := by rw [same]
  exclusive := fun exclusive => by rw [same]; exact exclusive

omit [DecidableEq κ] in
theorem trans (first : before.KeepsHeld after) (second : after.KeepsHeld last) :
    before.KeepsHeld last where
  processing := second.processing.trans first.processing
  exclusive := fun exclusive => second.exclusive (first.exclusive exclusive)

theorem add (queue : WorkQueue κ) (item : κ) : queue.KeepsHeld (queue.add item) where
  processing := Queue.processing_add _ item
  exclusive := fun exclusive => exclusive.add item

theorem addAfter (queue : WorkQueue κ) (item : κ) (delay : Nat) :
    queue.KeepsHeld (queue.addAfter item delay) := by
  rcases queue.shared_addAfter item delay with same | added
  · exact of_queue (congrArg Queue.Shared.queue same)
  · exact (add queue item).trans (of_queue (congrArg Queue.Shared.queue added))

theorem addRateLimited (queue : WorkQueue κ) (item : κ) :
    queue.KeepsHeld (queue.addRateLimited item) := by
  have counted : queue.KeepsHeld { (queue.backOff item).2 with retries := queue.retries + 1 } :=
    of_queue rfl
  exact counted.trans (addAfter _ item _)

omit [DecidableEq κ] in
theorem shutDown (queue : WorkQueue κ) : queue.KeepsHeld queue.shutDown := by
  rcases Queue.Shared.queue_shutDown queue.shared with same | down
  · exact of_queue same
  · refine ⟨?_, fun exclusive => ?_⟩
    · rw [WorkQueue.shutDown, down, Queue.processing_shutDown]
    · rw [WorkQueue.shutDown, down]
      exact exclusive.shutDown

theorem addCrashPoints {queue : WorkQueue κ} {item : κ} {point : CrashPoint (WorkQueue κ)}
    (crashes : point ∈ queue.addCrashPoints item) : queue.KeepsHeld point.left := by
  obtain ⟨clean, left | left⟩ := addCrashPoints_cases crashes
  · rw [left]
    exact ⟨rfl, fun exclusive => (exclusive.note clean _).withDepth _⟩
  · rw [left]
    exact ⟨Queue.processing_add _ item, fun exclusive => (exclusive.add item).withDepth _⟩

theorem rateLimitedCrashPoints {queue : WorkQueue κ} {item : κ} {point : CrashPoint (WorkQueue κ)}
    (crashes : point ∈ queue.rateLimitedCrashPoints item) : queue.KeepsHeld point.left := by
  obtain ⟨counted, same, left | crashes⟩ := rateLimitedCrashPoints_cases crashes
  · exact of_queue (by rw [left, same])
  · exact (of_queue (congrArg Queue.Shared.queue same)).trans (addCrashPoints crashes)

end KeepsHeld

end WorkQueue

namespace Retry

theorem handle_keepsHeld (budget : Nat) (queue : WorkQueue Key) (key : Key)
    (result : Except ReconcileError Unit) :
    queue.KeepsHeld (handle budget queue key result).queue := by
  cases result with
  | ok _ => exact .of_queue rfl
  | error error =>
      unfold handle
      simp only
      split
      · exact .of_queue rfl
      · split
        · exact .addRateLimited queue key
        · exact .of_queue rfl

theorem crashPoints_cases {budget : Nat} {queue : WorkQueue Key} {key : Key}
    {result : Except ReconcileError Unit} {point : CrashPoint (WorkQueue Key)}
    (crashes : point ∈ crashPoints budget queue key result) :
    point.left = queue ∨ point ∈ queue.rateLimitedCrashPoints key := by
  cases result with
  | ok _ =>
      rw [crashPoints, List.mem_singleton] at crashes
      exact .inl (congrArg CrashPoint.left crashes)
  | error error =>
      rcases List.mem_cons.mp crashes with rfl | crashes
      · exact .inl rfl
      · split at crashes
        · contradiction
        · split at crashes
          · exact .inr crashes
          · rw [List.mem_singleton] at crashes
            exact .inl (congrArg CrashPoint.left crashes)

theorem crashPoints_keepsHeld {budget : Nat} {queue : WorkQueue Key} {key : Key}
    {result : Except ReconcileError Unit} {point : CrashPoint (WorkQueue Key)}
    (crashes : point ∈ crashPoints budget queue key result) : queue.KeepsHeld point.left := by
  rcases crashPoints_cases crashes with left | crashes
  · exact .of_queue (by rw [left])
  · exact .rateLimitedCrashPoints crashes

end Retry

end ReconcileLoop

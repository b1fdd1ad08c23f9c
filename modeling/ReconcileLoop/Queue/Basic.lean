namespace ReconcileLoop

/-! # The deduplicating queue

An item waits at most once. An item that is added while a worker holds it is parked: it is dirty
but not ready, and becomes ready when the worker is done with it. So no two workers are handed one
item at the same time, and no change is lost.
-/

/-- A queue. The fields `adds` and `depth` are what its metrics show. -/
structure Queue (κ : Type) where
  /-- The items to hand out, the next one first. -/
  ready : List κ := []
  /-- The items that wait: ready, or parked until they are released. -/
  dirty : List κ := []
  processing : List κ := []
  down : Bool := false
  /-- How many adds made an item dirty. -/
  adds : Nat := 0
  /-- The last recorded length of `ready`. -/
  depth : Option Nat := none
deriving Repr, Inhabited

namespace Queue

variable {κ : Type} [DecidableEq κ]

def push (queue : Queue κ) (item : κ) : Queue κ :=
  { queue with ready := queue.ready ++ [item], depth := some (queue.ready.length + 1) }

/-- Makes an item wait, unless it waits already or the queue is down. -/
def add (queue : Queue κ) (item : κ) : Queue κ :=
  if queue.down then queue
  else if item ∈ queue.dirty then queue
  else
    let noted := { queue with dirty := item :: queue.dirty, adds := queue.adds + 1 }
    if item ∈ queue.processing then noted else noted.push item

/-- Hands out the next item, if there is one and the queue is not down. -/
def take? (queue : Queue κ) : Option (κ × Queue κ) :=
  if queue.down then none
  else
    match queue.ready with
    | [] => none
    | item :: rest =>
        some (item, { queue with
          ready := rest
          dirty := queue.dirty.erase item
          processing := queue.processing.insert item
          depth := some rest.length })

/-- Releases an item; if it was added in the meantime it is handed out again. -/
def done (queue : Queue κ) (item : κ) : Queue κ :=
  let released := { queue with processing := queue.processing.erase item }
  if item ∈ queue.dirty ∧ ¬queue.down then released.push item else released

/-- Stops handing out items and drops those that wait. The recorded depth stays. -/
def shutDown (queue : Queue κ) : Queue κ :=
  { queue with down := true, ready := [], dirty := [] }

def length (queue : Queue κ) : Nat := queue.ready.length

omit [DecidableEq κ] in
@[simp] theorem ready_push (queue : Queue κ) (item : κ) :
    (queue.push item).ready = queue.ready ++ [item] := rfl

theorem ready_add (queue : Queue κ) (item : κ) :
    (queue.add item).ready =
      if queue.down = false ∧ item ∉ queue.dirty ∧ item ∉ queue.processing then
        queue.ready ++ [item]
      else queue.ready := by
  unfold add push
  cases down : queue.down <;> by_cases dirty : item ∈ queue.dirty <;>
    by_cases processing : item ∈ queue.processing <;> simp [dirty, processing]

theorem mem_dirty_add {queue : Queue κ} {item other : κ} (up : queue.down = false) :
    other ∈ (queue.add item).dirty ↔ other = item ∨ other ∈ queue.dirty := by
  unfold add push
  by_cases dirty : item ∈ queue.dirty
  · simp only [up, dirty, if_true]
    constructor
    · exact Or.inr
    · rintro (rfl | there)
      · simpa using dirty
      · simpa using there
  · by_cases processing : item ∈ queue.processing <;> simp [up, dirty, processing]

@[simp] theorem processing_add (queue : Queue κ) (item : κ) :
    (queue.add item).processing = queue.processing := by
  unfold add push
  split
  · rfl
  · split
    · rfl
    · simp only
      split <;> rfl

theorem ready_done (queue : Queue κ) (item : κ) :
    (queue.done item).ready =
      if item ∈ queue.dirty ∧ queue.down = false then queue.ready ++ [item] else queue.ready := by
  unfold done push
  by_cases dirty : item ∈ queue.dirty <;> cases down : queue.down <;> simp [dirty]

omit [DecidableEq κ] in
@[simp] theorem ready_shutDown (queue : Queue κ) : queue.shutDown.ready = [] := rfl

omit [DecidableEq κ] in
@[simp] theorem down_shutDown (queue : Queue κ) : queue.shutDown.down = true := rfl

theorem take?_eq_some {queue after : Queue κ} {item : κ} (taken : queue.take? = some (item, after)) :
    queue.down = false ∧ queue.ready = item :: after.ready ∧
      after.dirty = queue.dirty.erase item ∧ after.processing = queue.processing.insert item := by
  unfold take? at taken
  split at taken
  · contradiction
  · next up =>
      split at taken
      · contradiction
      · next first rest ready =>
          cases taken
          exact ⟨by simpa using up, ready, rfl, rfl⟩

end Queue

end ReconcileLoop

import ReconcileLoop.Limiter.Tree
import ReconcileLoop.Metrics
import ReconcileLoop.Queue.Getter

namespace ReconcileLoop

/-! # The work queue

A deduplicating queue whose items can also be added later: after a delay, or when a limiter allows
it. A delayed add becomes due at the first whole millisecond at or after its delay; the adds due at
one millisecond happen in the order in which they were asked for.
-/

/-- An add that waits for its time. -/
structure DelayedAdd (κ : Type) where
  /-- In milliseconds since the start. -/
  due : Nat
  item : κ
deriving Repr, Inhabited

/-- A queue with its limiter, its delayed adds and its clock. -/
structure WorkQueue (κ : Type) where
  shared : Queue.Shared κ := {}
  limiter : Limiter κ
  /-- In the order in which they were asked for. -/
  delayed : List (DelayedAdd κ) := []
  now : Nat := 0
  /-- How many adds the limiter was asked for. -/
  retries : Nat := 0

namespace WorkQueue

variable {κ : Type} [DecidableEq κ]

def isDown (queue : WorkQueue κ) : Bool := queue.shared.queue.down

def length (queue : WorkQueue κ) : Nat := queue.shared.queue.length

def add (queue : WorkQueue κ) (item : κ) : WorkQueue κ :=
  { queue with shared := queue.shared.add item }

def done (queue : WorkQueue κ) (item : κ) : WorkQueue κ :=
  { queue with shared := queue.shared.done item }

/-- Adds an item after a delay, at once if there is none, and never if the queue is down. -/
def addAfter (queue : WorkQueue κ) (item : κ) (delay : Nat) : WorkQueue κ :=
  if queue.isDown then queue
  else if delay = 0 then queue.add item
  else
    { queue with delayed :=
        queue.delayed ++ [⟨Duration.ceilMillis (queue.now + delay), item⟩] }

/-- Counts a failure of an item with the limiter, which says how long to wait. -/
def backOff (queue : WorkQueue κ) (item : κ) : Nat × WorkQueue κ :=
  let (delay, limiter) := queue.limiter.backOff queue.now item
  (delay, { queue with limiter })

/-- Adds an item again as soon as the limiter allows it. -/
def addRateLimited (queue : WorkQueue κ) (item : κ) : WorkQueue κ :=
  let (delay, counted) := queue.backOff item
  { counted with retries := queue.retries + 1 }.addAfter item delay

def forget (queue : WorkQueue κ) (item : κ) : WorkQueue κ :=
  { queue with limiter := queue.limiter.forget item }

/-- The failures of an item since they were last forgotten. -/
def requeues (queue : WorkQueue κ) (item : κ) : Nat := queue.limiter.requeues item

/-- Hands out no more items; those that wait, now or delayed, are dropped. -/
def shutDown (queue : WorkQueue κ) : WorkQueue κ :=
  { queue with shared := queue.shared.shutDown, delayed := [] }

def nextDue? (queue : WorkQueue κ) : Option Nat := (queue.delayed.map DelayedAdd.due).min?

/-- The time a number of milliseconds after the start, or now if that has passed. -/
def advanceTo (queue : WorkQueue κ) (millis : Nat) : WorkQueue κ :=
  { queue with now := max queue.now (Duration.ofMillis millis) }

/-- The items whose delayed adds are due at a millisecond, in the order in which they were asked
for. -/
def dueItems (queue : WorkQueue κ) (due : Nat) : List κ :=
  (queue.delayed.filter (·.due = due)).map DelayedAdd.item

/-- The queue at a millisecond, without the delayed adds that are due then. -/
def reach (queue : WorkQueue κ) (due : Nat) : WorkQueue κ :=
  { queue with delayed := queue.delayed.filter (·.due ≠ due) }.advanceTo due

/-- Makes the delayed adds that are due at a millisecond. -/
def fire (queue : WorkQueue κ) (due : Nat) : WorkQueue κ :=
  (queue.dueItems due).foldl add (queue.reach due)

omit [DecidableEq κ] in
theorem mem_of_nextDue? {queue : WorkQueue κ} {due : Nat} (next : queue.nextDue? = some due) :
    ∃ add ∈ queue.delayed, add.due = due := by
  simpa using List.min?_mem next

@[simp] theorem delayed_foldl_add (queue : WorkQueue κ) (items : List κ) :
    (items.foldl add queue).delayed = queue.delayed := by
  induction items generalizing queue with
  | nil => rfl
  | cons item rest ih => exact ih (queue.add item)

theorem delayed_fire (queue : WorkQueue κ) (due : Nat) :
    (queue.fire due).delayed = queue.delayed.filter (·.due ≠ due) := by
  simp [fire, reach, advanceTo]

theorem length_delayed_fire_lt {queue : WorkQueue κ} {due : Nat}
    (next : queue.nextDue? = some due) : (queue.fire due).delayed.length < queue.delayed.length := by
  obtain ⟨add, member, same⟩ := mem_of_nextDue? next
  rw [delayed_fire]
  exact List.length_filter_lt_length_iff_exists.mpr ⟨add, member, by simp [same]⟩

/-- Runs tasks that get items until each of them waits or has finished. -/
def settle (queue : WorkQueue κ) (getters : List (Queue.Getter κ)) :
    WorkQueue κ × List (Queue.Getter κ) :=
  let (shared, getters) := queue.shared.settle getters
  ({ queue with shared }, getters)

@[simp] theorem delayed_settle (queue : WorkQueue κ) (getters : List (Queue.Getter κ)) :
    (queue.settle getters).1.delayed = queue.delayed := rfl

def elapse (queue : WorkQueue κ) (getters : List (Queue.Getter κ)) (deadline : Nat) :
    WorkQueue κ × List (Queue.Getter κ) :=
  match next : queue.nextDue? with
  | none => ({ queue with now := max queue.now deadline }, getters)
  | some due =>
      have smaller : ((queue.fire due).settle getters).1.delayed.length < queue.delayed.length := by
        rw [delayed_settle]
        exact length_delayed_fire_lt next
      if Duration.ofMillis due ≤ deadline then
        let settled := (queue.fire due).settle getters
        elapse settled.1 settled.2 deadline
      else ({ queue with now := max queue.now deadline }, getters)
termination_by queue.delayed.length

def metrics (queue : WorkQueue κ) (name : String) : List (Series × Nat) :=
  let series (metric : Metric) : Series := ⟨metric, [("queue", name)]⟩
  let counter (metric : Metric) (value : Nat) : List (Series × Nat) :=
    if value = 0 then [] else [(series metric, value)]
  counter .queueAdds queue.shared.queue.adds ++
    counter .queueRetries queue.retries ++
    (queue.shared.queue.depth.map (series .queueDepth, ·)).toList

end WorkQueue

end ReconcileLoop

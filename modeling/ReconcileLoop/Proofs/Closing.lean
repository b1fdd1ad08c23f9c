import Mathlib.Data.List.Nodup
import ReconcileLoop.Proofs.Counter
import ReconcileLoop.Proofs.Queue.Tickets

namespace ReconcileLoop

/-! # Shutting a work queue down

A shutdown is not one step: it empties the queue, calls the delayed adds off, and wakes those who
wait, and everybody goes on meanwhile. A delayed add that was let in before may be timed after all
that, and one that was called off may still end first. `Closing` is a counter with the state of its
shutdown, in which all of this happens in any order. Once the queue is down, calls can only release
what is held (`WorkQueue.perform_of_down`), and once the shutdown is done everybody who gets an item
is told that there is none (`Closing.final_of_reachable`).
-/

variable {κ : Type} [DecidableEq κ]

namespace Queue

theorem add_of_down {queue : Queue κ} (down : queue.down = true) (item : κ) :
    queue.add item = queue := by
  simp [add, down]

theorem done_of_down {queue : Queue κ} (down : queue.down = true) (item : κ) :
    queue.done item = { queue with processing := queue.processing.erase item } := by
  simp [done, down]

namespace Shared

theorem add_of_down {shared : Shared κ} (down : shared.queue.down = true) (item : κ) :
    shared.add item = shared := by
  simp [add, changed, Queue.add_of_down down]

theorem done_of_down {shared : Shared κ} (down : shared.queue.down = true) (item : κ) :
    shared.done item = { shared with
      queue := { shared.queue with processing := shared.queue.processing.erase item } } := by
  simp [done, changed, Queue.done_of_down down, Queue.length]

omit [DecidableEq κ] in
theorem shutDown_of_down {shared : Shared κ} (down : shared.queue.down = true) :
    shared.shutDown = shared := by
  simp [shutDown, down]

omit [DecidableEq κ] in
theorem ticketed_changed {shared : Shared κ} {tickets : List Ticket}
    (ticketed : shared.signal.Ticketed tickets) (after : Queue κ) :
    (shared.changed after).signal.Ticketed tickets := by
  unfold changed
  simp only
  split
  · exact ticketed.callOne
  · exact ticketed

end Shared

/-- What an operation leaves of a queue, if it does not shut it down. -/
structure Keeps (before after : Queue κ) : Prop where
  down : after.down = before.down
  processing (nodup : before.processing.Nodup) : after.processing.Nodup
  ready (down : before.down = true) : after.ready = before.ready
  dirty (down : before.down = true) : after.dirty = before.dirty

namespace Keeps

omit [DecidableEq κ] in
theorem refl (queue : Queue κ) : queue.Keeps queue := ⟨rfl, id, fun _ => rfl, fun _ => rfl⟩

theorem add (queue : Queue κ) (item : κ) : queue.Keeps (queue.add item) where
  down := down_add queue item
  processing := by
    rw [processing_add]
    exact id
  ready down := by rw [add_of_down down]
  dirty down := by rw [add_of_down down]

theorem done (queue : Queue κ) (item : κ) : queue.Keeps (queue.done item) where
  down := down_done queue item
  processing nodup := by
    rw [processing_done]
    exact nodup.erase item
  ready down := by rw [done_of_down down]
  dirty := fun _ => dirty_done queue item

theorem take? {queue after : Queue κ} {item : κ} (taken : queue.take? = some (item, after)) :
    queue.Keeps after := by
  obtain ⟨up, _, _, processing⟩ := take?_eq_some taken
  have down (down : queue.down = true) : False := by simp [up] at down
  refine ⟨(down_of_take? taken).trans up.symm, fun nodup => ?_, fun held => (down held).elim,
    fun held => (down held).elim⟩
  rw [processing]
  exact List.Nodup.insert nodup

end Keeps

namespace Dismissed

variable {shared : Shared κ} {getters : List (Getter κ)}

theorem done (dismissed : Dismissed shared getters) (item : κ) :
    Dismissed (shared.done item) getters := by
  rw [Shared.done_of_down dismissed.down]
  exact ⟨dismissed.down, dismissed.ticketed, dismissed.called⟩

omit [DecidableEq κ] in
theorem leave {getter : Getter κ} (dismissed : Dismissed shared (getter :: getters)) :
    Dismissed (shared.leave getter.ticket?) getters := by
  have ticketed := tickets_cons getter getters ▸ dismissed.ticketed
  refine ⟨?_, Shared.ticketed_leave ticketed, fun ticket waits => ?_⟩
  · rw [Shared.queue_leave]
    exact dismissed.down
  · exact Shared.isCalled_leave ticketed (mem_tickets waits)
      (dismissed.called ticket (List.mem_cons_of_mem _ waits))

omit [DecidableEq κ] in
theorem come (dismissed : Dismissed shared getters) : Dismissed shared (getters ++ [.fresh]) := by
  refine ⟨dismissed.down, ?_, fun ticket waits => dismissed.called ticket ?_⟩
  · rw [tickets_come]
    exact dismissed.ticketed
  · simpa using waits

end Dismissed

end Queue

namespace WorkQueue

/-- Apart from a shutdown, a call adds an item, releases one, or leaves the items alone. -/
theorem perform_cases (queue : WorkQueue κ) {call : Call κ} (goesOn : call ≠ .shutDown) :
    (queue.perform call).shared = queue.shared ∨
      ∃ item, (queue.perform call).shared = queue.shared.add item ∨
        (queue.perform call).shared = queue.shared.done item := by
  cases call with
  | add item => exact .inr ⟨item, .inl rfl⟩
  | addAfter item delay =>
      exact (queue.shared_addAfter item delay).imp id fun same => ⟨item, .inl same⟩
  | addRateLimited item =>
      exact (shared_addAfter { (queue.backOff item).2 with retries := queue.retries + 1 } item _).imp
        id fun same => ⟨item, .inl same⟩
  | done item => exact .inr ⟨item, .inr rfl⟩
  | forget item => exact .inl rfl
  | shutDown => exact absurd rfl goesOn

/-- What a call leaves of a queue that is down: it can release an item, and that is all. -/
def leavings (queue : WorkQueue κ) : Call κ → Queue.Shared κ
  | .done item => { queue.shared with
      queue := { queue.shared.queue with
        processing := queue.shared.queue.processing.erase item } }
  | _ => queue.shared

theorem perform_of_down {queue : WorkQueue κ} (down : queue.isDown = true) (call : Call κ) :
    (queue.perform call).shared = queue.leavings call := by
  have held : queue.shared.queue.down = true := down
  have counted (item : κ) : (queue.backOff item).2.isDown = true := down
  cases call with
  | add item => exact Queue.Shared.add_of_down held item
  | addAfter item delay => simp [perform, addAfter, down, leavings]
  | addRateLimited item =>
      change (addAfter { (queue.backOff item).2 with retries := queue.retries + 1 } item
        (queue.backOff item).1).shared = _
      unfold addAfter
      rw [if_pos (show isDown { (queue.backOff item).2 with retries := queue.retries + 1 } = true
        from down)]
      rfl
  | done item => exact Queue.Shared.done_of_down held item
  | forget item => rfl
  | shutDown => exact Queue.Shared.shutDown_of_down held

end WorkQueue

namespace Counter

/-- Everything but a shutdown. -/
def Everyday (_ : Queue.Ledger κ) (call : WorkQueue.Call κ) : Prop := call ≠ .shutDown

omit [DecidableEq κ] in
/-- A task at one place, next to the others. -/
theorem perm_place {getters : List (Queue.Getter κ)} {place : Nat} {getter : Queue.Getter κ}
    (there : getters[place]? = some getter) (next : Queue.Getter κ) :
    getters.Perm (getter :: getters.eraseIdx place) ∧
      (next :: getters.eraseIdx place).Perm (getters.set place next) := by
  obtain ⟨inside, rfl⟩ := List.getElem?_eq_some_iff.mp there
  exact ⟨(List.getElem_cons_eraseIdx_perm inside).symm,
    (List.set_perm_cons_eraseIdx inside next).symm⟩

/-- What a step does to the tasks and to what they share, unless it is a shutdown. -/
theorem Step.cases {counter after : Counter κ} (stepped : Step Everyday counter after) :
    (after.getters = counter.getters ∧ (after.queue.shared = counter.queue.shared ∨
      ∃ item, after.queue.shared = counter.queue.shared.add item ∨
        after.queue.shared = counter.queue.shared.done item)) ∨
    (after.getters = counter.getters ++ [.fresh] ∧ after.queue.shared = counter.queue.shared) ∨
    (∃ getter next others, counter.getters.Perm (getter :: others) ∧
      after.getters.Perm (next :: others) ∧
      getter.step? counter.queue.shared = some (after.queue.shared, next)) ∨
    ∃ getter, counter.getters.Perm (getter :: after.getters) ∧
      after.queue.shared = counter.queue.shared.leave getter.ticket? := by
  cases stepped with
  | call call allowed => exact .inl ⟨rfl, counter.queue.perform_cases allowed⟩
  | come => exact .inr (.inl ⟨rfl, rfl⟩)
  | get place there moved =>
      obtain ⟨before, later⟩ := perm_place there _
      exact .inr (.inr (.inl ⟨_, _, _, before, later.symm, moved⟩))
  | leave place there => exact .inr (.inr (.inr ⟨_, (perm_place there .fresh).1, rfl⟩))
  | elapse pending due => exact .inl ⟨rfl, .inr ⟨_, .inl rfl⟩⟩
  | wait later onward => exact .inl ⟨rfl, .inl rfl⟩

theorem Step.ticketed {counter after : Counter κ} (stepped : Step Everyday counter after)
    (ticketed : counter.queue.shared.signal.Ticketed (Queue.tickets counter.getters)) :
    after.queue.shared.signal.Ticketed (Queue.tickets after.getters) := by
  rcases stepped.cases with ⟨getters, same | ⟨item, same | same⟩⟩ | ⟨getters, same⟩ |
    ⟨getter, next, others, before, later, moved⟩ | ⟨getter, before, same⟩
  · rw [getters, same]
    exact ticketed
  · rw [getters, same]
    exact Queue.Shared.ticketed_changed ticketed _
  · rw [getters, same]
    exact Queue.Shared.ticketed_changed ticketed _
  · rw [getters, same, Queue.tickets_come]
    exact ticketed
  · exact (Queue.Getter.ticketed_step? moved (ticketed.perm (before.filterMap _))).perm
      (later.symm.filterMap _)
  · have apart := ticketed.perm (before.filterMap _)
    rw [same]
    exact Queue.Shared.ticketed_leave (Queue.tickets_cons getter after.getters ▸ apart)

theorem Step.dismissed {counter after : Counter κ} (stepped : Step Everyday counter after)
    (dismissed : Queue.Dismissed counter.queue.shared counter.getters) :
    Queue.Dismissed after.queue.shared after.getters := by
  rcases stepped.cases with ⟨getters, same | ⟨item, same | same⟩⟩ | ⟨getters, same⟩ |
    ⟨getter, next, others, before, later, moved⟩ | ⟨getter, before, same⟩
  · rw [getters, same]
    exact dismissed
  · rw [getters, same, Queue.Shared.add_of_down dismissed.down]
    exact dismissed
  · rw [getters, same]
    exact dismissed.done item
  · rw [getters, same]
    exact dismissed.come
  · exact ((dismissed.perm before).step moved).perm later.symm
  · rw [same]
    exact (dismissed.perm before).leave

theorem Step.keeps {counter after : Counter κ} (stepped : Step Everyday counter after) :
    counter.queue.shared.queue.Keeps after.queue.shared.queue := by
  rcases stepped.cases with ⟨_, same | ⟨item, same | same⟩⟩ | ⟨_, same⟩ |
    ⟨getter, next, others, _, _, moved⟩ | ⟨getter, _, same⟩
  · exact same ▸ .refl _
  · exact same ▸ .add _ item
  · exact same ▸ .done _ item
  · exact same ▸ .refl _
  · rcases Queue.Getter.step?_taken? moved with ⟨item, _, taken⟩ | ⟨_, same⟩
    · exact .take? taken
    · exact same ▸ .refl _
  · rw [same, Queue.Shared.queue_leave]
    exact .refl _

theorem handedOut_entries (queue : WorkQueue κ) (call : WorkQueue.Call κ)
    (ledger : Queue.Ledger κ) :
    Queue.Ledger.handedOut (queue.entries call ++ ledger) = Queue.Ledger.handedOut ledger := by
  cases call with
  | add item => rfl
  | addAfter item delay =>
      unfold WorkQueue.entries
      simp only
      split <;> rfl
  | addRateLimited item =>
      unfold WorkQueue.entries
      simp only
      split <;> rfl
  | done item => rfl
  | forget item => rfl
  | shutDown => rfl

/-- A queue that is down hands nothing out, and no task has more than it had. -/
theorem Step.hands_nothing {rule : Queue.Ledger κ → WorkQueue.Call κ → Prop}
    {counter after : Counter κ} (stepped : Step rule counter after)
    (down : counter.queue.shared.queue.down = true) :
    Queue.Ledger.handedOut after.ledger = Queue.Ledger.handedOut counter.ledger ∧
      (after.getters.filterMap Queue.Getter.taken?).Subperm
        (counter.getters.filterMap Queue.Getter.taken?) := by
  cases stepped with
  | call call allowed => exact ⟨handedOut_entries _ call _, .refl _⟩
  | come =>
      have same : (counter.getters ++ [Queue.Getter.fresh]).filterMap Queue.Getter.taken? =
          counter.getters.filterMap Queue.Getter.taken? :=
        List.filterMap_append.trans (List.append_nil _)
      exact ⟨rfl, same ▸ .refl _⟩
  | @get place getter next shared there moved =>
      obtain ⟨_, nothing, none, _⟩ := Queue.Getter.step?_of_down down moved
      obtain ⟨before, later⟩ := perm_place there next
      have now := before.filterMap Queue.Getter.taken?
      have afterwards := later.filterMap Queue.Getter.taken?
      rw [List.filterMap_cons_none nothing] at now
      rw [List.filterMap_cons_none none] at afterwards
      exact ⟨by simp [none], (now.trans afterwards).symm.subperm⟩
  | @leave place getter there =>
      exact ⟨rfl, ((List.eraseIdx_sublist _ _).filterMap _).subperm⟩
  | elapse pending due => exact ⟨rfl, .refl _⟩
  | wait later onward => exact ⟨rfl, .refl _⟩

/-- While nobody calls it, a queue that is down stays as it is. -/
theorem queue_of_steps {counter after : Counter κ} (down : counter.queue.shared.queue.down = true)
    (steps : Relation.ReflTransGen (Step fun _ _ => False) counter after) :
    after.queue.shared.queue = counter.queue.shared.queue := by
  induction steps with
  | refl => rfl
  | @tail before after _ stepped ih =>
      refine Eq.trans ?_ ih
      have still : before.queue.shared.queue.down = true := ih ▸ down
      cases stepped with
      | call call allowed => exact allowed.elim
      | come => rfl
      | get place there moved => exact (Queue.Getter.step?_of_down still moved).1
      | leave place there => exact Queue.Shared.queue_leave _ _
      | elapse pending due => exact Queue.add_of_down still _
      | wait later onward => rfl

end Counter

/-- How far the shutdown of a queue has come. -/
inductive Closing.Stage where
  | up
  /-- The queue is down and empty. -/
  | emptied
  /-- The delayed adds are called off as well. -/
  | cancelled
  /-- Those who waited are woken as well. -/
  | done
deriving DecidableEq, Repr

/-- A counter with the state of its shutdown. -/
structure Closing (κ : Type) where
  counter : Counter κ
  stage : Closing.Stage := .up
  /-- The delayed adds that were let in and are not timed yet. -/
  admitted : List (κ × Nat) := []

namespace Closing

def withShared (closing : Closing κ) (shared : Queue.Shared κ) (stage : Stage) : Closing κ :=
  { closing with
    counter := { closing.counter with queue := { closing.counter.queue with shared } }, stage }

def withDelayed (closing : Closing κ) (delayed : List (DelayedAdd κ)) : Closing κ :=
  { closing with
    counter := { closing.counter with queue := { closing.counter.queue with delayed } } }

/-- What goes on at a counter while it is shut down in three parts. -/
inductive Step (closing : Closing κ) : Closing κ → Prop where
  | work {after : Counter κ} (stepped : Counter.Step Counter.Everyday closing.counter after) :
      Step closing { closing with counter := after }
  /-- A rate limited add asks the limiter first. -/
  | count (item : κ) :
      Step closing
        { closing with counter := { closing.counter with
            queue := { (closing.counter.queue.backOff item).2 with
              retries := closing.counter.queue.retries + 1 } } }
  /-- A delayed add finds that the queue is up. -/
  | letIn (item : κ) (delay : Nat) (up : closing.counter.queue.isDown = false) :
      Step closing { closing with admitted := closing.admitted ++ [(item, delay)] }
  | time {before after : List (κ × Nat)} {item : κ} {delay : Nat}
      (admitted : closing.admitted = before ++ (item, delay) :: after) :
      Step closing
        { closing.withDelayed (closing.counter.queue.delayed ++
            [⟨Duration.ceilMillis (closing.counter.queue.now + delay), item⟩]) with
          admitted := before ++ after }
  | empty (starts : closing.stage = .up) :
      Step closing (closing.withShared
        { closing.counter.queue.shared with queue := closing.counter.queue.shared.queue.shutDown }
        .emptied)
  | cancel (emptied : closing.stage = .emptied) : Step closing { closing with stage := .cancelled }
  /-- A delayed add takes note that it is called off. -/
  | drop {before after : List (DelayedAdd κ)} {delayed : DelayedAdd κ}
      (off : closing.stage = .cancelled ∨ closing.stage = .done)
      (pending : closing.counter.queue.delayed = before ++ delayed :: after) :
      Step closing (closing.withDelayed (before ++ after))
  | wake (cancelled : closing.stage = .cancelled) :
      Step closing (closing.withShared
        { closing.counter.queue.shared with signal := closing.counter.queue.shared.signal.callAll }
        .done)

inductive Reachable : Closing κ → Prop where
  | start (limiter : Limiter κ) : Reachable { counter := { queue := { limiter } } }
  | step {closing after : Closing κ} (earlier : Reachable closing) (stepped : Step closing after) :
      Reachable after

/-- The delayed adds that were called off are gone one by one. -/
theorem drop_steps (closing : Closing κ) (off : closing.stage = .cancelled ∨ closing.stage = .done) :
    Relation.ReflTransGen Step closing (closing.withDelayed []) := by
  suffices dropped : ∀ pending : List (DelayedAdd κ), Relation.ReflTransGen Step
      (closing.withDelayed pending) (closing.withDelayed []) from dropped _
  intro pending
  induction pending with
  | nil => exact .refl
  | cons delayed rest ih =>
      have front : (closing.withDelayed (delayed :: rest)).counter.queue.delayed =
          [] ++ delayed :: rest := rfl
      have first : Step (closing.withDelayed (delayed :: rest)) _ := .drop off front
      exact .head first ih

/-- With nothing in between, the parts of a shutdown are the shutdown. -/
theorem shutDown_steps (closing : Closing κ) (starts : closing.stage = .up)
    (up : closing.counter.queue.isDown = false) :
    Relation.ReflTransGen Step closing
      { closing with
        counter := { closing.counter with queue := closing.counter.queue.shutDown }
        stage := .done } := by
  let emptied := closing.withShared
    { closing.counter.queue.shared with queue := closing.counter.queue.shared.queue.shutDown }
    .emptied
  let cancelled : Closing κ := { emptied with stage := .cancelled }
  have down : closing.counter.queue.shared.queue.down = false := up
  have first : Step closing emptied := .empty starts
  have second : Step emptied cancelled := .cancel rfl
  have last : Step (cancelled.withDelayed []) _ := .wake rfl
  refine .head first (.head second ((drop_steps cancelled (.inl rfl)).tail ?_))
  simpa [WorkQueue.shutDown, Queue.Shared.shutDown, down, withShared, withDelayed, cancelled,
    emptied] using last

theorem Step.of_done {closing after : Closing κ} (stepped : Step closing after)
    (down : closing.counter.queue.shared.queue.down = true) (done : closing.stage = .done) :
    after.stage = .done ∧
      Queue.Ledger.handedOut after.counter.ledger =
        Queue.Ledger.handedOut closing.counter.ledger ∧
      (after.counter.getters.filterMap Queue.Getter.taken?).Subperm
        (closing.counter.getters.filterMap Queue.Getter.taken?) := by
  cases stepped with
  | work stepped => exact ⟨done, stepped.hands_nothing down⟩
  | count item => exact ⟨done, rfl, .refl _⟩
  | letIn item delay up => exact ⟨done, rfl, .refl _⟩
  | time admitted => exact ⟨done, rfl, .refl _⟩
  | empty starts => simp [starts] at done
  | cancel emptied => simp [emptied] at done
  | drop off pending => exact ⟨done, rfl, .refl _⟩
  | wake cancelled => simp [cancelled] at done

/-- What a shutdown in any state goes by. -/
structure Kept (closing : Closing κ) : Prop where
  ticketed : closing.counter.queue.shared.signal.Ticketed (Queue.tickets closing.counter.getters)
  processing : closing.counter.queue.shared.queue.processing.Nodup
  down : closing.counter.queue.shared.queue.down = true ↔ closing.stage ≠ .up
  empty (down : closing.counter.queue.shared.queue.down = true) :
    closing.counter.queue.shared.queue.ready = [] ∧ closing.counter.queue.shared.queue.dirty = []
  dismissed (done : closing.stage = .done) :
    Queue.Dismissed closing.counter.queue.shared closing.counter.getters

namespace Kept

variable {closing : Closing κ}

theorem work (kept : closing.Kept) {after : Counter κ}
    (stepped : Counter.Step Counter.Everyday closing.counter after) :
    Kept { closing with counter := after } where
  ticketed := stepped.ticketed kept.ticketed
  processing := stepped.keeps.processing kept.processing
  down := by
    rw [stepped.keeps.down]
    exact kept.down
  empty down := by
    have before := stepped.keeps.down ▸ down
    rw [stepped.keeps.ready before, stepped.keeps.dirty before]
    exact kept.empty before
  dismissed done := stepped.dismissed (kept.dismissed done)

theorem step {after : Closing κ} (kept : closing.Kept) (stepped : Step closing after) :
    after.Kept := by
  cases stepped with
  | work stepped => exact kept.work stepped
  | count item =>
      exact ⟨kept.ticketed, kept.processing, kept.down, kept.empty, kept.dismissed⟩
  | letIn item delay up =>
      exact ⟨kept.ticketed, kept.processing, kept.down, kept.empty, kept.dismissed⟩
  | time admitted => exact ⟨kept.ticketed, kept.processing, kept.down, kept.empty, kept.dismissed⟩
  | empty starts =>
      refine ⟨kept.ticketed, kept.processing, ?_, fun _ => ⟨rfl, rfl⟩, fun done => ?_⟩
      · exact iff_of_true rfl (by simp [withShared])
      · contradiction
  | cancel emptied =>
      refine ⟨kept.ticketed, kept.processing, ?_, kept.empty, fun done => ?_⟩
      · exact iff_of_true (kept.down.mpr (by simp [emptied])) (by simp)
      · contradiction
  | drop off pending => exact ⟨kept.ticketed, kept.processing, kept.down, kept.empty, kept.dismissed⟩
  | wake cancelled =>
      have down := kept.down.mpr (by simp [cancelled])
      have woken := kept.ticketed.callAll
      refine ⟨woken, kept.processing, iff_of_true down (by simp [withShared]), kept.empty,
        fun _ => ⟨down, woken, fun ticket waits => ?_⟩⟩
      exact Queue.Signal.isCalled_callAll (kept.ticketed.known ticket (Queue.mem_tickets waits))

theorem of_reachable (reachable : Reachable closing) : closing.Kept := by
  induction reachable with
  | start limiter =>
      refine ⟨⟨List.nodup_nil, by simp [Queue.tickets], by simp [Queue.tickets]⟩, List.nodup_nil,
        by simp, fun down => by contradiction, fun done => by contradiction⟩
  | step _ stepped ih => exact ih.step stepped

end Kept

/-- What is true of a counter for good once its queue has been shut down. -/
structure Final (counter : Counter κ) : Prop where
  empty : counter.queue.shared.queue.ready = [] ∧ counter.queue.shared.queue.dirty = []
  /-- Whoever still gets an item is told at its next steps that there is none. -/
  told : ∀ getter ∈ counter.getters,
    (getter.run counter.queue.shared Queue.Getter.stepsToRest).2 = .finished getter.taken?
  served : (counter.queue.settle counter.getters).2 =
    counter.getters.map fun getter => .finished getter.taken?
  turnsAway : counter.queue.shared.poll.2 = some none
  calls (call : WorkQueue.Call κ) : (counter.queue.perform call).shared = counter.queue.leavings call
  releases (item : κ) :
    item ∉ (counter.queue.perform (.done item)).shared.queue.processing
  elapses (deadline : Nat) :
    (counter.queue.elapse counter.getters deadline).1.shared.queue = counter.queue.shared.queue

theorem Kept.final {closing : Closing κ} (kept : closing.Kept) (done : closing.stage = .done) :
    Final closing.counter := by
  have dismissed := kept.dismissed done
  have down : closing.counter.queue.isDown = true := dismissed.down
  have calls := WorkQueue.perform_of_down down
  refine ⟨kept.empty dismissed.down, fun getter there => ?_, dismissed.settle, ?_, calls,
    fun item => ?_, fun deadline => ?_⟩
  · exact (dismissed.perm (List.perm_cons_erase there)).finishes
  · have finished := Queue.Getter.run_fresh dismissed.down 4
    unfold Queue.Shared.poll
    change (Queue.Getter.fresh.run closing.counter.queue.shared Queue.Getter.stepsToRest).2 = _
      at finished
    split
    · next shared item? ran =>
        rw [ran] at finished
        cases finished
        rfl
    · next shared getter other ran =>
        rw [ran] at finished
        exact absurd finished (other none)
  · rw [calls]
    exact kept.processing.not_mem_erase
  · obtain ⟨_, steps⟩ := Counter.elapse_steps (fun _ _ => False) closing.counter.queue
      closing.counter.getters closing.counter.ledger deadline
    exact Counter.queue_of_steps dismissed.down steps

/-- Once the shutdown of a queue is done, whatever went on before and whatever goes on after that:
the queue is and stays empty, whoever waits or comes is told that there is nothing, no call and no
delay puts anything into the queue, a release only releases, and nothing is handed out any more. -/
theorem final_of_reachable {closing later : Closing κ} (reachable : Reachable closing)
    (done : closing.stage = .done) (onward : Relation.ReflTransGen Step closing later) :
    later.stage = .done ∧ Final later.counter ∧
      Queue.Ledger.handedOut later.counter.ledger =
        Queue.Ledger.handedOut closing.counter.ledger ∧
      (later.counter.getters.filterMap Queue.Getter.taken?).Subperm
        (closing.counter.getters.filterMap Queue.Getter.taken?) := by
  suffices kept : later.Kept ∧ later.stage = .done ∧
      Queue.Ledger.handedOut later.counter.ledger =
        Queue.Ledger.handedOut closing.counter.ledger ∧
      (later.counter.getters.filterMap Queue.Getter.taken?).Subperm
        (closing.counter.getters.filterMap Queue.Getter.taken?) from
    ⟨kept.2.1, kept.1.final kept.2.1, kept.2.2⟩
  induction onward with
  | refl => exact ⟨.of_reachable reachable, done, rfl, .refl _⟩
  | @tail before after _ stepped ih =>
      obtain ⟨kept, still, handed, fewer⟩ := ih
      obtain ⟨stays, more, less⟩ := stepped.of_done (kept.dismissed still).down still
      exact ⟨kept.step stepped, stays, more.trans handed, less.trans fewer⟩

end Closing

end ReconcileLoop

import ReconcileLoop.Proofs.Releases

namespace ReconcileLoop

/-! # What the gauge of a queue shows

Every operation that puts an item in line or takes the next one out sets the gauge of the queue's
length anew. Shutting the queue down drops the items in line and leaves the gauge alone, and after
that no operation sets it. So the gauge is right at the end of a run exactly if the queue was not shut
down while items were in line (`Counter.gauged_iff`).
-/

variable {κ : Type} [DecidableEq κ]

namespace WorkQueue

/-- What the gauge of the length of a queue shows, once it was set. -/
def gauge? (queue : WorkQueue κ) (name : String) : Option Nat :=
  Metrics.value? ⟨queue.metrics name⟩ ⟨.queueDepth, [("queue", name)]⟩

omit [DecidableEq κ] in
theorem gauge?_eq (queue : WorkQueue κ) (name : String) :
    queue.gauge? name = queue.shared.queue.depth := by
  unfold gauge? metrics Metrics.value?
  simp only
  cases queue.shared.queue.depth <;> split <;> split <;> simp

end WorkQueue

namespace Queue

/-- What an operation makes of a queue, unless it shuts the queue down. -/
inductive Change (queue : Queue κ) : Queue κ → Prop where
  | none : Change queue queue
  | add (item : κ) : Change queue (queue.add item)
  | done (item : κ) : Change queue (queue.done item)
  | take {item : κ} {after : Queue κ} (taken : queue.take? = some (item, after)) :
      Change queue after

/-- The gauge shows the length, or was never set and nothing was ever in line. -/
def Measured (queue : Queue κ) : Prop :=
  queue.depth = some queue.length ∨ queue.depth = none ∧ queue.length = 0

/-- The queue is down, and the gauge shows the length that it had before. -/
structure Stale (queue : Queue κ) : Prop where
  down : queue.down = true
  emptied : queue.ready = []
  shown : ∃ length, queue.depth = some length ∧ length ≠ 0

variable {queue after : Queue κ}

omit [DecidableEq κ] in
theorem measured_push (queue : Queue κ) (item : κ) : (queue.push item).Measured :=
  .inl (by simp [push, length])

theorem depth_of_take? {item : κ} (taken : queue.take? = some (item, after)) :
    after.depth = some after.length := by
  unfold take? at taken
  split at taken
  · contradiction
  · split at taken
    · contradiction
    · cases taken; rfl

theorem Measured.change (measured : queue.Measured) (change : queue.Change after) :
    after.Measured := by
  cases change with
  | none => exact measured
  | add item =>
      cases down : queue.down with
      | true => simpa [Queue.add, down] using measured
      | false =>
          rcases add_cases down item with ⟨_, same⟩ | ⟨_, _, same⟩ | ⟨_, _, same⟩ <;> rw [same]
          · exact measured
          · exact measured
          · exact measured_push ..
  | done item =>
      unfold Queue.done
      split
      · exact measured_push ..
      · exact measured
  | take taken => exact .inl (depth_of_take? taken)

theorem Stale.change (stale : queue.Stale) (change : queue.Change after) : after.Stale := by
  have down := stale.down
  cases change with
  | none => exact stale
  | add item => simpa [Queue.add, down] using stale
  | done item =>
      have same : queue.done item = { queue with processing := queue.processing.erase item } := by
        simp [Queue.done, down]
      rw [same]
      exact ⟨down, stale.emptied, stale.shown⟩
  | take taken => exact absurd ((take?_eq_some taken).1.symm.trans down) Bool.false_ne_true

omit [DecidableEq κ] in
theorem Measured.shutDown (measured : queue.Measured) (empty : queue.length = 0) :
    queue.shutDown.Measured :=
  measured.imp (fun shown => shown.trans (congrArg some empty)) fun never => ⟨never.1, rfl⟩

omit [DecidableEq κ] in
theorem Measured.stale_shutDown (measured : queue.Measured) (waiting : queue.length ≠ 0) :
    queue.shutDown.Stale :=
  ⟨rfl, rfl, queue.length, measured.resolve_right fun never => waiting never.2, waiting⟩

end Queue

namespace Counter

variable {counter before after : Counter κ}

/-- The gauge shows the length of the queue, once it was set. -/
def Gauged (counter : Counter κ) : Prop :=
  ∀ name shown, counter.queue.gauge? name = some shown → shown = counter.queue.length

omit [DecidableEq κ] in
theorem gauged_of_measured (measured : counter.queue.shared.queue.Measured) : counter.Gauged := by
  intro name shown set
  rw [WorkQueue.gauge?_eq] at set
  rcases measured with right | ⟨never, _⟩
  · exact Option.some.inj (set.symm.trans right)
  · exact absurd (never.symm.trans set) nofun

omit [DecidableEq κ] in
theorem not_gauged_of_stale (stale : counter.queue.shared.queue.Stale) : ¬counter.Gauged := by
  obtain ⟨shown, set, positive⟩ := stale.shown
  intro gauged
  have right := gauged "" shown ((WorkQueue.gauge?_eq ..).trans set)
  rw [WorkQueue.length, Queue.length, stale.emptied] at right
  exact positive right

/-- Whether a step shuts the queue down while items are in line. -/
def Drops (before after : Counter κ) : Prop :=
  before.queue.isDown = false ∧ before.queue.length ≠ 0 ∧ after = before.calling .shutDown

theorem queue_calling_shutDown (up : counter.queue.isDown = false) :
    (counter.calling .shutDown).queue.shared.queue = counter.queue.shared.queue.shutDown := by
  have inner : counter.queue.shared.queue.down = false := up
  simp [calling, WorkQueue.perform, WorkQueue.shutDown, Queue.Shared.shutDown, inner]

theorem change_addAfter (queue : WorkQueue κ) (item : κ) (delay : Nat) :
    queue.shared.queue.Change (queue.addAfter item delay).shared.queue := by
  rcases queue.shared_addAfter item delay with same | added
  · rw [same]
    exact .none
  · rw [added]
    exact .add item

/-- A step shuts the queue down, or makes of it what the other operations make of a queue. -/
theorem Step.change {rule : Queue.Ledger κ → WorkQueue.Call κ → Prop}
    (stepped : Step rule counter after) :
    counter.queue.isDown = false ∧ after = counter.calling .shutDown ∨
      counter.queue.shared.queue.Change after.queue.shared.queue := by
  cases stepped with
  | call call allowed =>
      cases call with
      | add item => exact .inr (.add item)
      | addAfter item delay => exact .inr (change_addAfter ..)
      | addRateLimited item =>
          let counted := { (counter.queue.backOff item).2 with retries := counter.queue.retries + 1 }
          exact .inr (change_addAfter counted item _)
      | done item => exact .inr (.done item)
      | forget item => exact .inr .none
      | shutDown =>
          cases down : counter.queue.isDown with
          | false => exact .inl ⟨rfl, rfl⟩
          | true =>
              have inner : counter.queue.shared.queue.down = true := down
              refine .inr ?_
              simpa [WorkQueue.perform, WorkQueue.shutDown, Queue.Shared.shutDown, inner] using
                Queue.Change.none
  | come => exact .inr .none
  | get place there moved =>
      rcases Queue.Getter.step?_taken? moved with ⟨item, _, taken⟩ | ⟨_, same⟩
      · exact .inr (.take taken)
      · refine .inr ?_
        rw [same]
        exact .none
  | leave place there => exact .inr (by simpa using Queue.Change.none)
  | elapse pending due => exact .inr (.add _)
  | wait later onward => exact .inr .none

/-- Until items in line are dropped the gauge follows the queue, and from then on it is stale. -/
theorem Run.measured_or_stale {states : List (Counter κ)} (run : Run states) :
    ∀ counter ∈ states.head?,
      states.IsChain (fun after before => ¬Drops before after) ∧
          counter.queue.shared.queue.Measured ∨
        ¬states.IsChain (fun after before => ¬Drops before after) ∧
          counter.queue.shared.queue.Stale := by
  induction run with
  | start limiter =>
      rintro counter ⟨⟩
      exact .inl ⟨List.isChain_singleton _, .inr ⟨rfl, rfl⟩⟩
  | @step counter after earlier run stepped ih =>
      rintro last ⟨⟩
      rw [List.isChain_cons_cons]
      rcases ih counter rfl with ⟨neat, measured⟩ | ⟨torn, stale⟩
      · by_cases drops : Drops counter after
        · refine .inr ⟨fun spares => spares.1 drops, ?_⟩
          obtain ⟨up, waiting, rfl⟩ := drops
          rw [queue_calling_shutDown up]
          exact measured.stale_shutDown waiting
        · refine .inl ⟨⟨drops, neat⟩, ?_⟩
          rcases stepped.change with ⟨up, down⟩ | change
          · have empty : counter.queue.length = 0 :=
              Decidable.byContradiction fun waiting => drops ⟨up, waiting, down⟩
            rw [down, queue_calling_shutDown up]
            exact measured.shutDown empty
          · exact measured.change change
      · -- A queue that is down is not shut down again, and nothing else sets its gauge.
        refine .inr ⟨fun spares => torn spares.2, ?_⟩
        rcases stepped.change with ⟨up, _⟩ | change
        · exact absurd (up.symm.trans stale.down) Bool.false_ne_true
        · exact stale.change change

/-- Nothing was dropped as long as the queue is up. -/
theorem Run.spares_of_up {earlier : List (Counter κ)} (run : Run (counter :: earlier))
    (up : counter.queue.isDown = false) :
    (counter :: earlier).IsChain fun after before => ¬Drops before after := by
  rcases run.measured_or_stale counter rfl with ⟨neat, _⟩ | ⟨_, stale⟩
  · exact neat
  · exact absurd (up.symm.trans stale.down) Bool.false_ne_true

/-- Whatever calls are made, and in whatever order: the gauge, once it was set, shows the length of
the queue exactly if the queue was never shut down while items were in line. Nothing that happens
after such a shutdown makes it right again. -/
theorem gauged_iff {earlier : List (Counter κ)} (run : Run (counter :: earlier)) :
    counter.Gauged ↔
      (counter :: earlier).IsChain fun after before => ¬Drops before after := by
  rcases run.measured_or_stale counter rfl with ⟨neat, measured⟩ | ⟨torn, stale⟩
  · exact iff_of_true (gauged_of_measured measured) neat
  · exact iff_of_false (not_gauged_of_stale stale) torn

/-- The only item in line is taken before the queue is shut down. -/
theorem gauged_of_emptied :
    ∃ (counter : Counter Nat) (earlier : List (Counter Nat)), Run (counter :: earlier) ∧
      ((counter :: earlier).IsChain fun after before => ¬Drops before after) ∧
      counter.queue.isDown = true ∧ counter.queue.gauge? "keys" = some 0 ∧ counter.Gauged := by
  have added : Run (κ := Nat) _ := .step (.start (.longest [])) (.call (.add 7) trivial)
  have arrived : Run (κ := Nat) _ := .step added .come
  have joined : Run (κ := Nat) _ := .step arrived (.get 0 rfl rfl)
  have taken : Run (κ := Nat) _ := .step joined (.get 0 rfl rfl)
  have down : Run (κ := Nat) _ := .step taken (.call .shutDown trivial)
  refine ⟨_, _, down, ?spares, rfl, (WorkQueue.gauge?_eq ..).trans rfl,
    (gauged_iff down).mpr ?spares⟩
  exact (taken.spares_of_up rfl).cons_cons fun drops => drops.2.1 rfl

/-- An item is in line when the queue is shut down, and the gauge goes on to show it. -/
theorem not_gauged_of_dropped :
    ¬∀ states : List (Counter Nat), Run states → ∀ counter ∈ states, counter.Gauged := by
  intro claimed
  have run := ((Run.start (κ := Nat) (.longest [])).calling (.add 7)).calling .shutDown
  have gauged := claimed _ run _ (List.mem_cons_self ..)
  have right : 1 = 0 := gauged "keys" 1 ((WorkQueue.gauge?_eq ..).trans rfl)
  contradiction

end Counter

end ReconcileLoop

import ReconcileLoop.Proofs.Workshop

namespace ReconcileLoop

/-! # What one step of a crew can do

A step moves one worker, or none; it takes the next key out of the queue, or goes on with the queue
in a way that takes nothing out (`WorkQueue.GoesOn`); and the log grows by what was handed over, if
anything was (`Crew.Step.cases`). What a crew can do after its queue was shut down and after its
workers have stopped is read off that.
-/

theorem Queue.take?_of_down {κ : Type} [DecidableEq κ] {queue : Queue κ}
    (down : queue.down = true) : queue.take? = none := by
  simp [take?, down]

namespace WorkQueue

variable {κ : Type} [DecidableEq κ] {queue before after last : WorkQueue κ} {item : κ}

omit [DecidableEq κ] in
/-- An item waits, unless the queue is down. -/
def Minds (queue : WorkQueue κ) (item : κ) : Prop :=
  queue.isDown = true ∨ item ∈ queue.shared.queue.dirty

/-- What an operation leaves of a queue, if it hands nothing out. -/
structure GoesOn (before after : WorkQueue κ) : Prop where
  down (down : before.isDown = true) : after.isDown = true
  minds (item : κ) (minds : before.Minds item) : after.Minds item

namespace GoesOn

omit [DecidableEq κ] in
theorem of_queue (same : after.shared.queue = before.shared.queue) : before.GoesOn after where
  down := fun down => by rw [isDown, same]; exact down
  minds := fun item minds => by rw [Minds, isDown, same]; exact minds

omit [DecidableEq κ] in
theorem trans (first : before.GoesOn after) (second : after.GoesOn last) : before.GoesOn last where
  down := fun down => second.down (first.down down)
  minds := fun item minds => second.minds item (first.minds item minds)

omit [DecidableEq κ] in
theorem of_retains (retains : before.Retains after) : before.GoesOn after where
  down := retains.down.trans
  minds := fun item minds => minds.imp retains.down.trans (retains.dirty item)

omit [DecidableEq κ] in
theorem shutDown (queue : WorkQueue κ) : queue.GoesOn queue.shutDown := by
  rcases Queue.Shared.queue_shutDown queue.shared with same | down
  · exact of_queue same
  · have isDown : queue.shutDown.isDown = true := congrArg Queue.down down
    exact ⟨fun _ => isDown, fun _ _ => .inl isDown⟩

/-- An item that was put down as waiting stays so, though its add is not completed. -/
theorem addCrashPoints {point : CrashPoint (WorkQueue κ)}
    (crashes : point ∈ queue.addCrashPoints item) : queue.GoesOn point.left := by
  obtain ⟨_, left | left⟩ := addCrashPoints_cases crashes
  · rw [left]
    exact ⟨id, fun other minds => minds.imp id (List.mem_cons_of_mem _)⟩
  · rw [left]
    exact (of_retains (.add queue item)).trans ⟨id, fun _ => id⟩

theorem rateLimitedCrashPoints {point : CrashPoint (WorkQueue κ)}
    (crashes : point ∈ queue.rateLimitedCrashPoints item) : queue.GoesOn point.left := by
  obtain ⟨counted, same, left | crashes⟩ := rateLimitedCrashPoints_cases crashes
  · exact of_queue (by rw [left, same])
  · exact (of_queue (congrArg Queue.Shared.queue same)).trans (addCrashPoints crashes)

end GoesOn

end WorkQueue

theorem Retry.crashPoints_goesOn {budget : Nat} {queue : WorkQueue Key} {key : Key}
    {result : Except ReconcileError Unit} {point : CrashPoint (WorkQueue Key)}
    (crashes : point ∈ crashPoints budget queue key result) : queue.GoesOn point.left := by
  rcases crashPoints_cases crashes with left | crashes
  · exact .of_queue (by rw [left])
  · exact .rateLimitedCrashPoints crashes

/-- A release in the log. -/
def Handover.IsRelease : Handover → Prop
  | got _ _ => False
  | released _ _ => True

namespace Crew

variable {budget : Nat} {crew after : Crew}

/-- What becomes of queue and log when a worker moves. -/
inductive Moves (crew after : Crew) (place : Nat) : Prop where
  | takes (key : Key)
      (taken : crew.queue.shared.queue.take? = some (key, after.queue.shared.queue))
      (log : after.log = .got place key :: crew.log)
  | releases (key : Key) (goesOn : crew.queue.GoesOn after.queue)
      (log : after.log = .released place key :: crew.log)
  | works (goesOn : crew.queue.GoesOn after.queue) (log : after.log = crew.log)

theorem Step.cases (stepped : Step budget crew after) :
    (after.members = crew.members ∧ after.log = crew.log ∧ crew.queue.GoesOn after.queue) ∨
    ∃ place member next, crew.members[place]? = some member ∧ member.worker ≠ .stopped ∧
      after.members = crew.members.set place next ∧ Moves crew after place := by
  cases stepped with
  | @get place doomed getter next shared there moved =>
      refine .inr ⟨place, _, _, there, by simp, rfl, ?_⟩
      rcases Queue.Getter.step?_queue moved with ⟨key, rfl, taken⟩ | ⟨same, nothing⟩
      · exact .takes key taken rfl
      · exact .works (.of_queue same) (by rw [(nothing_got place nothing).2]; rfl)
  | stop there => exact .inr ⟨_, _, _, there, by simp, rfl, .works (.of_queue rfl) rfl⟩
  | begin there => exact .inr ⟨_, _, _, there, by simp, rfl, .works (.of_queue rfl) rfl⟩
  | pass result there => exact .inr ⟨_, _, _, there, by simp, rfl, .works (.of_queue rfl) rfl⟩
  | settle there decided =>
      subst decided
      exact .inr ⟨_, _, _, there, by simp, rfl, .works (.of_retains Retry.handle_retains) rfl⟩
  | settleCrash there crashes =>
      exact .inr ⟨_, _, _, there, by simp, rfl, .works (Retry.crashPoints_goesOn crashes) rfl⟩
  | limiterCrash limiter there =>
      exact .inr ⟨_, _, _, there, by simp, rfl, .works (.of_queue rfl) rfl⟩
  | report crashed there =>
      exact .inr ⟨_, _, _, there, by simp, rfl, .works (.of_queue rfl) rfl⟩
  | @release place key doomed there =>
      exact .inr ⟨_, _, _, there, by simp, rfl,
        .releases key (.of_retains (.done crew.queue key)) rfl⟩
  | add key => exact .inl ⟨rfl, rfl, .of_retains (.add crew.queue key)⟩
  | addAfter key delay => exact .inl ⟨rfl, rfl, .of_retains (.addAfter crew.queue key delay)⟩
  | addRateLimited key => exact .inl ⟨rfl, rfl, .of_retains (.addRateLimited crew.queue key)⟩
  | addCrash crashes => exact .inl ⟨rfl, rfl, .addCrashPoints crashes⟩
  | @elapse before later delayed waits =>
      have dropped : crew.queue.GoesOn { crew.queue with delayed := before ++ later } :=
        .of_queue rfl
      exact .inl ⟨rfl, rfl, dropped.trans (.of_retains (.add _ delayed.item))⟩
  | tick limiter now => exact .inl ⟨rfl, rfl, .of_queue rfl⟩
  | shutDown => exact .inl ⟨rfl, rfl, .shutDown crew.queue⟩

theorem Step.length_members (stepped : Step budget crew after) :
    after.members.length = crew.members.length := by
  rcases stepped.cases with ⟨same, _⟩ | ⟨_, _, _, _, _, members, _⟩
  · rw [same]
  · rw [members, List.length_set]

/-- The log grows by at most one handover, of a worker that there is. -/
theorem Step.log (stepped : Step budget crew after) :
    after.log = crew.log ∨ ∃ handover, after.log = handover :: crew.log ∧ crew.members ≠ [] := by
  rcases stepped.cases with ⟨_, log, _⟩ | ⟨place, member, next, there, _, _, moves⟩
  · exact .inl log
  · have present : crew.members ≠ [] := List.ne_nil_of_mem (List.mem_of_getElem? there)
    cases moves with
    | takes key _ log => exact .inr ⟨_, log, present⟩
    | releases key _ log => exact .inr ⟨_, log, present⟩
    | works _ log => exact .inl log

/-- Out of a queue that is down no key is taken. -/
theorem Step.of_down (stepped : Step budget crew after) (down : crew.queue.isDown = true) :
    after.queue.isDown = true ∧
      (after.log = crew.log ∨ ∃ place key, after.log = .released place key :: crew.log) := by
  rcases stepped.cases with ⟨_, log, goesOn⟩ | ⟨place, member, next, _, _, _, moves⟩
  · exact ⟨goesOn.down down, .inl log⟩
  · cases moves with
    | takes key taken log =>
        rw [Queue.take?_of_down down] at taken
        contradiction
    | releases key goesOn log => exact ⟨goesOn.down down, .inr ⟨place, key, log⟩⟩
    | works goesOn log => exact ⟨goesOn.down down, .inl log⟩

/-- Workers that have stopped stay as they are. -/
theorem Step.of_stopped (stepped : Step budget crew after)
    (stopped : ∀ member ∈ crew.members, member.worker = .stopped) :
    after.members = crew.members := by
  rcases stepped.cases with ⟨same, _⟩ | ⟨_, member, _, there, active, _⟩
  · exact same
  · exact absurd (stopped member (List.mem_of_getElem? there)) active

/-- A key that waits goes on waiting until a worker takes it, unless the queue is shut down. -/
theorem Step.minds (stepped : Step budget crew after) {key : Key}
    (minds : crew.queue.Minds key ∨ ∃ place, .got place key ∈ crew.log) :
    after.queue.Minds key ∨ ∃ place, .got place key ∈ after.log := by
  have later {handover : Handover} (log : after.log = handover :: crew.log)
      (was : ∃ place, .got place key ∈ crew.log) : ∃ place, .got place key ∈ after.log := by
    obtain ⟨place, member⟩ := was
    exact ⟨place, log ▸ List.mem_cons_of_mem _ member⟩
  rcases stepped.cases with ⟨_, log, goesOn⟩ | ⟨place, member, next, _, _, _, moves⟩
  · exact log ▸ minds.imp (goesOn.minds key) id
  · cases moves with
    | takes own taken log =>
        rcases minds with (down | waits) | was
        · rw [Queue.take?_of_down down] at taken
          contradiction
        · by_cases same : key = own
          · subst same
            exact .inr ⟨place, log ▸ List.mem_cons_self ..⟩
          · obtain ⟨_, _, dirty, _⟩ := Queue.take?_eq_some taken
            refine .inl (.inr ?_)
            rw [dirty]
            exact (List.mem_erase_of_ne same).mpr waits
        · exact .inr (later log was)
    | releases own goesOn log => exact minds.imp (goesOn.minds key) (later log)
    | works goesOn log => exact log ▸ minds.imp (goesOn.minds key) id

end Crew

end ReconcileLoop

import Mathlib.Logic.Relation
import ReconcileLoop.Proofs.Queue.Ledger

namespace ReconcileLoop

/-! # A work queue and those who use it

`Counter` is a work queue with the tasks that get items from it and a ledger of what happened. Its
users call it, tasks make their steps and delays end in any order; which calls are made is left to a
rule. Time passes for a work queue in such steps (`Counter.elapse_steps`). If only what is held is
released and nobody shuts the queue down, then no add is lost or counted twice, and items are handed
out in order (`Counter.conserved_of_reachable`).
-/

/-- What the users of a work queue ask of it, apart from getting items. -/
inductive WorkQueue.Call (κ : Type) where
  | add (item : κ)
  | addAfter (item : κ) (delay : Nat)
  | addRateLimited (item : κ)
  | done (item : κ)
  | forget (item : κ)
  | shutDown

variable {κ : Type} [DecidableEq κ]

namespace WorkQueue

def perform (queue : WorkQueue κ) : Call κ → WorkQueue κ
  | .add item => queue.add item
  | .addAfter item delay => queue.addAfter item delay
  | .addRateLimited item => queue.addRateLimited item
  | .done item => queue.done item
  | .forget item => queue.forget item
  | .shutDown => queue.shutDown

/-- What a call brings about at once: an add that is delayed comes about later. -/
def entries (queue : WorkQueue κ) : Call κ → Queue.Ledger κ
  | .add item => [.added item]
  | .addAfter item delay => if delay = 0 then [.added item] else []
  | .addRateLimited item => if (queue.backOff item).1 = 0 then [.added item] else []
  | .done item => [.released item]
  | .forget _ => []
  | .shutDown => []

end WorkQueue

structure Counter (κ : Type) where
  queue : WorkQueue κ
  getters : List (Queue.Getter κ) := []
  ledger : Queue.Ledger κ := []

namespace Counter

/-- The atomic steps at a counter where calls follow a rule. -/
inductive Step (rule : Queue.Ledger κ → WorkQueue.Call κ → Prop) (counter : Counter κ) :
    Counter κ → Prop where
  | call (call : WorkQueue.Call κ) (allowed : rule counter.ledger call) :
      Step rule counter
        { counter with
          queue := counter.queue.perform call
          ledger := counter.queue.entries call ++ counter.ledger }
  | come : Step rule counter { counter with getters := counter.getters ++ [.fresh] }
  | get (place : Nat) {getter next : Queue.Getter κ} {shared : Queue.Shared κ}
      (there : counter.getters[place]? = some getter)
      (moved : getter.step? counter.queue.shared = some (shared, next)) :
      Step rule counter
        { queue := { counter.queue with shared }
          getters := counter.getters.set place next
          ledger := next.taken?.toList.map .handed ++ counter.ledger }
  /-- A task goes away, with what it got or without. -/
  | leave (place : Nat) {getter : Queue.Getter κ} (there : counter.getters[place]? = some getter) :
      Step rule counter
        { counter with
          queue := { counter.queue with shared := counter.queue.shared.leave getter.ticket? }
          getters := counter.getters.eraseIdx place }
  /-- A delay has ended; no two of them end in one step. -/
  | elapse {before after : List (DelayedAdd κ)} {delayed : DelayedAdd κ}
      (pending : counter.queue.delayed = before ++ delayed :: after)
      (due : Duration.ofMillis delayed.due ≤ counter.queue.now) :
      Step rule counter
        { counter with
          queue := { counter.queue with delayed := before ++ after }.add delayed.item
          ledger := .added delayed.item :: counter.ledger }
  | wait (later : Nat) (onward : counter.queue.now ≤ later) :
      Step rule counter { counter with queue := { counter.queue with now := later } }

inductive Reachable (rule : Queue.Ledger κ → WorkQueue.Call κ → Prop) : Counter κ → Prop where
  | start (limiter : Limiter κ) : Reachable rule { queue := { limiter } }
  | step {counter after : Counter κ} (earlier : Reachable rule counter)
      (stepped : Step rule counter after) : Reachable rule after

/-! Time passes in steps. -/

section Elapse

variable (rule : Queue.Ledger κ → WorkQueue.Call κ → Prop)

/-- Ends the delays that are due at a millisecond, one after the other. -/
theorem fire_steps (due : Nat) (kept rest : List (DelayedAdd κ)) (queue : WorkQueue κ)
    (getters : List (Queue.Getter κ)) (ledger : Queue.Ledger κ)
    (pending : queue.delayed = kept ++ rest) (reached : Duration.ofMillis due ≤ queue.now) :
    ∃ later, Relation.ReflTransGen (Step rule) ⟨queue, getters, ledger⟩
      ⟨((rest.filter (·.due = due)).map DelayedAdd.item).foldl WorkQueue.add
        { queue with delayed := kept ++ rest.filter (·.due ≠ due) }, getters, later⟩ := by
  induction rest generalizing kept queue ledger with
  | nil =>
      refine ⟨ledger, ?_⟩
      have same : { queue with delayed := kept ++ [] } = queue := by rw [← pending]
      simp only [List.filter_nil, List.map_nil, List.foldl_nil, same]
      exact .refl
  | cons delayed rest ih =>
      by_cases now : delayed.due = due
      · have first : Step rule ⟨queue, getters, ledger⟩ _ :=
          .elapse pending (by rw [now]; exact reached)
        obtain ⟨later, others⟩ := ih kept ({ queue with delayed := kept ++ rest }.add delayed.item)
          (.added delayed.item :: ledger) rfl reached
        refine ⟨later, .head first ?_⟩
        rw [List.filter_cons_of_neg (by simpa using now),
          List.filter_cons_of_pos (by simpa using now)]
        exact others
      · obtain ⟨later, others⟩ := ih (kept ++ [delayed]) queue ledger
          (by rw [pending, List.append_assoc]; rfl) reached
        refine ⟨later, ?_⟩
        rw [List.filter_cons_of_pos (by simpa using now),
          List.filter_cons_of_neg (by simpa using now), List.append_cons]
        exact others

theorem run_steps (fuel : Nat) {place : Nat} (getter : Queue.Getter κ) (queue : WorkQueue κ)
    (getters : List (Queue.Getter κ)) (ledger : Queue.Ledger κ)
    (there : getters[place]? = some getter) :
    ∃ later, Relation.ReflTransGen (Step rule) ⟨queue, getters, ledger⟩
      ⟨{ queue with shared := (getter.run queue.shared fuel).1 },
        getters.set place (getter.run queue.shared fuel).2, later⟩ := by
  obtain ⟨inside, same⟩ := List.getElem?_eq_some_iff.mp there
  have still : getters.set place getter = getters := by
    rw [← same, List.set_getElem_self]
  induction fuel generalizing getter queue getters ledger with
  | zero =>
      refine ⟨ledger, ?_⟩
      simp only [Queue.Getter.run, still]
      exact .refl
  | succ fuel ih =>
      cases moved : getter.step? queue.shared with
      | none =>
          refine ⟨ledger, ?_⟩
          simp only [Queue.Getter.run, moved, still]
          exact .refl
      | some result =>
          obtain ⟨shared, next⟩ := result
          have first : Step rule ⟨queue, getters, ledger⟩ _ := .get place there moved
          obtain ⟨later, others⟩ := ih next { queue with shared } (getters.set place next)
            (next.taken?.toList.map .handed ++ ledger) (by simp [inside]) (by simpa using inside)
            (by simp) (by simp)
          refine ⟨later, .head first ?_⟩
          simpa [Queue.Getter.run, moved] using others

theorem settle_steps (before rest : List (Queue.Getter κ)) (queue : WorkQueue κ)
    (ledger : Queue.Ledger κ) :
    ∃ later, Relation.ReflTransGen (Step rule) ⟨queue, before ++ rest, ledger⟩
      ⟨(queue.settle rest).1, before ++ (queue.settle rest).2, later⟩ := by
  induction rest generalizing before queue ledger with
  | nil => exact ⟨ledger, .refl⟩
  | cons getter rest ih =>
      have there : (before ++ getter :: rest)[before.length]? = some getter := by simp
      obtain ⟨ran, first⟩ :=
        run_steps rule Queue.Getter.stepsToRest getter queue _ ledger there
      obtain ⟨later, others⟩ := ih
        (before ++ [(getter.run queue.shared Queue.Getter.stepsToRest).2])
        { queue with shared := (getter.run queue.shared Queue.Getter.stepsToRest).1 } ran
      refine ⟨later, first.trans ?_⟩
      simpa [WorkQueue.settle, Queue.Shared.settle] using others

/-- While time passes, delays end and tasks go on, in atomic steps. -/
theorem elapse_steps (queue : WorkQueue κ) (getters : List (Queue.Getter κ))
    (ledger : Queue.Ledger κ) (deadline : Nat) :
    ∃ later, Relation.ReflTransGen (Step rule) ⟨queue, getters, ledger⟩
      ⟨(queue.elapse getters deadline).1, (queue.elapse getters deadline).2, later⟩ := by
  have onward (queue : WorkQueue κ) (getters : List (Queue.Getter κ)) (ledger : Queue.Ledger κ)
      (instant : Nat) : Step rule ⟨queue, getters, ledger⟩
        ⟨{ queue with now := max queue.now instant }, getters, ledger⟩ :=
    .wait _ (Nat.le_max_left ..)
  fun_induction WorkQueue.elapse queue getters deadline generalizing ledger with
  | case1 queue getters none => exact ⟨ledger, .single (onward ..)⟩
  | case2 queue getters due next smaller reached settled ih =>
      obtain ⟨fired, adds⟩ := fire_steps rule due [] queue.delayed (queue.advanceTo due) getters
        ledger rfl (Nat.le_max_right ..)
      obtain ⟨served, moves⟩ := settle_steps rule [] getters (queue.fire due) fired
      obtain ⟨later, rest⟩ := ih served
      exact ⟨later, .head (onward queue getters ledger (Duration.ofMillis due))
        (adds.trans (moves.trans rest))⟩
  | case3 queue getters due next smaller early => exact ⟨ledger, .single (onward ..)⟩

variable {rule}

theorem Reachable.steps {counter after : Counter κ} (earlier : Reachable rule counter)
    (steps : Relation.ReflTransGen (Step rule) counter after) : Reachable rule after := by
  induction steps with
  | refl => exact earlier
  | tail _ stepped ih => exact .step ih stepped

theorem Reachable.elapse {counter : Counter κ} (earlier : Reachable rule counter)
    (deadline : Nat) :
    ∃ ledger, Reachable rule
      ⟨(counter.queue.elapse counter.getters deadline).1,
        (counter.queue.elapse counter.getters deadline).2, ledger⟩ := by
  obtain ⟨ledger, steps⟩ :=
    elapse_steps rule counter.queue counter.getters counter.ledger deadline
  exact ⟨ledger, earlier.steps steps⟩

end Elapse

/-! Conservation: what is added is handed out once, in order. -/

/-- Only what is held is released, and the queue stays up. -/
def Careful (ledger : Queue.Ledger κ) : WorkQueue.Call κ → Prop
  | .done item => Queue.Ledger.Held item ledger
  | .shutDown => False
  | _ => True

theorem accounts_addAfter (queue : WorkQueue κ) {ledger : Queue.Ledger κ}
    (accounts : queue.shared.queue.Accounts ledger) (item : κ) (delay : Nat) :
    (queue.addAfter item delay).shared.queue.Accounts
      (queue.entries (.addAfter item delay) ++ ledger) := by
  have up : queue.isDown = false := accounts.up
  by_cases instant : delay = 0
  · simp only [WorkQueue.addAfter, WorkQueue.entries, up, instant, if_true]
    exact accounts.add item
  · simpa [WorkQueue.addAfter, WorkQueue.entries, up, instant] using accounts

theorem accounts_perform {queue : WorkQueue κ} {ledger : Queue.Ledger κ} {call : WorkQueue.Call κ}
    (accounts : queue.shared.queue.Accounts ledger) (careful : Careful ledger call) :
    (queue.perform call).shared.queue.Accounts (queue.entries call ++ ledger) := by
  cases call with
  | add item => exact accounts.add item
  | addAfter item delay => exact accounts_addAfter queue accounts item delay
  | addRateLimited item =>
      exact accounts_addAfter { (queue.backOff item).2 with retries := queue.retries + 1 } accounts
        item _
  | done item => exact accounts.done careful
  | forget item => exact accounts
  | shutDown => contradiction

theorem accounts_step {counter after : Counter κ}
    (accounts : counter.queue.shared.queue.Accounts counter.ledger)
    (stepped : Step Careful counter after) : after.queue.shared.queue.Accounts after.ledger := by
  cases stepped with
  | call call allowed => exact accounts_perform accounts allowed
  | come => exact accounts
  | get place there moved =>
      rcases Queue.Getter.step?_taken? moved with ⟨item, got, taken⟩ | ⟨nothing, same⟩
      · rw [got]
        exact accounts.take? taken
      · rw [nothing, same]
        exact accounts
  | leave place there => simpa using accounts
  | elapse pending due => exact accounts.add _
  | wait later onward => exact accounts

theorem accounts_of_reachable {counter : Counter κ} (reachable : Reachable Careful counter) :
    counter.queue.shared.queue.Accounts counter.ledger := by
  induction reachable with
  | start limiter => exact .empty
  | step earlier stepped ih => exact accounts_step ih stepped

/-- What waits is in line, or was added again by whoever holds it. Every add that counts has been
handed out or waits, none of them twice, and what was added is handed out after that unless it
still waits. Items are handed out in the order in which they came into line. -/
theorem conserved_of_reachable {counter : Counter κ} (reachable : Reachable Careful counter) :
    (∀ item, item ∈ counter.queue.shared.queue.dirty ↔
      item ∈ counter.queue.shared.queue.ready ∨
        Queue.Ledger.Held item counter.ledger ∧ Queue.Ledger.Waits item counter.ledger) ∧
    (counter.queue.shared.queue.dirty.Nodup ∧
      counter.queue.shared.queue.adds =
        (Queue.Ledger.handedOut counter.ledger).length + counter.queue.shared.queue.dirty.length) ∧
    (∀ newer item earlier, counter.ledger = newer ++ .added item :: earlier →
      item ∈ counter.queue.shared.queue.dirty ∨ .handed item ∈ newer) ∧
    Queue.Ledger.entered counter.ledger =
      Queue.Ledger.handedOut counter.ledger ++ counter.queue.shared.queue.ready := by
  have accounts := accounts_of_reachable reachable
  refine ⟨fun item => ⟨fun waits => ?_, ?_⟩,
    ⟨accounts.exclusive.dirty_nodup, accounts.adds⟩, ?_, accounts.order⟩
  · rcases accounts.parks item waits with ready | processing
    · exact .inl ready
    · exact .inr ⟨(accounts.held_iff item).mpr processing, (accounts.waits item).mp waits⟩
  · rintro (ready | ⟨_, waits⟩)
    · exact accounts.exclusive.ready_dirty item ready
    · exact (accounts.waits item).mpr waits
  · intro newer item earlier split
    rw [accounts.waits item, split]
    exact Queue.Ledger.waits_or_handed

/-- An item is added again while it is held, waits once more, and is then released. -/
theorem conserved_of_parked :
    ∃ counter : Counter Nat, Reachable Careful counter ∧
      counter.ledger = [.released 7, .added 7, .handed 7, .added 7] ∧
      counter.queue.shared.queue.adds = 2 ∧
      Queue.Ledger.entered counter.ledger = [7, 7] := by
  have added : Reachable (κ := Nat) Careful _ :=
    .step (.start (.longest [])) (.call (.add 7) trivial)
  have arrived : Reachable (κ := Nat) Careful _ := .step added .come
  have joined : Reachable (κ := Nat) Careful _ := .step arrived (.get 0 rfl rfl)
  have taken : Reachable (κ := Nat) Careful _ := .step joined (.get 0 rfl rfl)
  have again : Reachable (κ := Nat) Careful _ := .step taken (.call (.addAfter 7 0) trivial)
  have released : Reachable (κ := Nat) Careful _ :=
    .step again (.call (.done 7)
      (show Queue.Ledger.Held 7 [.added 7, .handed 7, .added 7] by decide))
  obtain ⟨_, ⟨_, adds⟩, _, order⟩ := conserved_of_reachable released
  exact ⟨_, released, rfl, adds, order⟩

end Counter

end ReconcileLoop

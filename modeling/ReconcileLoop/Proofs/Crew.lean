import Mathlib.Logic.Relation
import ReconcileLoop.Proofs.Hands

namespace ReconcileLoop

/-! # At most one worker has a key

Workers get keys, make passes, settle, report and release, each in its own time and however each of
these ends, while keys are added and the queue is shut down. `Crew` is their common state, with a
log of what was handed out and released. `Crew.Orderly` is the invariant: the queue and the workers
agree about who has which key, and so does the log.
-/

/-- A worker, and whether it crashed while it reported: then releasing its key is the last thing
that it does. -/
structure Member where
  worker : Worker
  doomed : Bool := false

/-- A key changes hands between the queue and the worker at a place. -/
inductive Handover where
  | got (place : Nat) (key : Key)
  | released (place : Nat) (key : Key)

def Handover.key : Handover → Key
  | got _ key => key
  | released _ key => key

/-- A log, the newest first, in which everything that the workers got of a key was released once
before it was got again, by the worker that got it. What is left is the worker that has the key. -/
inductive Alternates (key : Key) : List Handover → Option Nat → Prop where
  | empty : Alternates key [] none
  | other {handover log holder} (differs : handover.key ≠ key)
      (earlier : Alternates key log holder) : Alternates key (handover :: log) holder
  | got {place log} (earlier : Alternates key log none) :
      Alternates key (.got place key :: log) (some place)
  | released {place log} (earlier : Alternates key log (some place)) :
      Alternates key (.released place key :: log) none

/-- A queue, the workers at it, and what went through their hands. -/
structure Crew where
  queue : WorkQueue Key
  members : List Member
  log : List Handover := []

namespace Crew

def start (limiter : Limiter Key) (workers : Nat) : Crew where
  queue := { limiter }
  members := List.replicate workers { worker := .getting .fresh }

def held? (crew : Crew) (place : Nat) : Option Key :=
  crew.members[place]?.bind (·.worker.held?)

def move (crew : Crew) (place : Nat) (member : Member) : Crew :=
  { crew with members := crew.members.set place member }

def entry (place : Nat) : Queue.Getter Key → List Handover
  | .finished (some key) => [.got place key]
  | _ => []

def afterSettling (key : Key) : Decision → Worker
  | .abandoned _ message => .reporting key message
  | _ => .releasing key

def afterRelease (doomed : Bool) : Worker := if doomed then .stopped else .getting .fresh

/-- The atomic steps of the workers and of those who add keys, with a budget of retries. -/
inductive Step (budget : Nat) (crew : Crew) : Crew → Prop where
  | get (place : Nat) {doomed : Bool} {getter next : Queue.Getter Key}
      {shared : Queue.Shared Key}
      (there : crew.members[place]? = some ⟨.getting getter, doomed⟩)
      (moved : getter.step? crew.queue.shared = some (shared, next)) :
      Step budget crew
        { crew.move place ⟨.getting next, doomed⟩ with
          queue := { crew.queue with shared }
          log := entry place next ++ crew.log }
  | stop {place : Nat} {doomed : Bool}
      (there : crew.members[place]? = some ⟨.getting (.finished none), doomed⟩) :
      Step budget crew (crew.move place ⟨.stopped, doomed⟩)
  | begin {place : Nat} {key : Key} {doomed : Bool}
      (there : crew.members[place]? = some ⟨.getting (.finished (some key)), doomed⟩) :
      Step budget crew (crew.move place ⟨.holding key, doomed⟩)
  /-- A pass ends well, with any error, or with a crash, which counts as an error. -/
  | pass {place : Nat} {key : Key} {doomed : Bool} (result : Except ReconcileError Unit)
      (there : crew.members[place]? = some ⟨.holding key, doomed⟩) :
      Step budget crew (crew.move place ⟨.settling key result, doomed⟩)
  | settle {place : Nat} {key : Key} {doomed : Bool} {result : Except ReconcileError Unit}
      {outcome : Retry.Outcome}
      (there : crew.members[place]? = some ⟨.settling key result, doomed⟩)
      (decided : Retry.handle budget crew.queue key result = outcome) :
      Step budget crew
        { crew.move place ⟨afterSettling key outcome.decision, doomed⟩ with
          queue := outcome.queue }
  | settleCrash {place : Nat} {key : Key} {doomed : Bool} {result : Except ReconcileError Unit}
      {point : CrashPoint (WorkQueue Key)}
      (there : crew.members[place]? = some ⟨.settling key result, doomed⟩)
      (crashes : point ∈ Retry.crashPoints budget crew.queue key result) :
      Step budget crew { crew.move place ⟨.releasing key, doomed⟩ with queue := point.left }
  | limiterCrash {place : Nat} {key : Key} {doomed : Bool} {result : Except ReconcileError Unit}
      (limiter : Limiter Key)
      (there : crew.members[place]? = some ⟨.settling key result, doomed⟩) :
      Step budget crew
        { crew.move place ⟨.releasing key, doomed⟩ with queue := { crew.queue with limiter } }
  | report {place : Nat} {key : Key} {message : String} {doomed : Bool} (crashed : Bool)
      (there : crew.members[place]? = some ⟨.reporting key message, doomed⟩) :
      Step budget crew (crew.move place ⟨.releasing key, doomed || crashed⟩)
  | release {place : Nat} {key : Key} {doomed : Bool}
      (there : crew.members[place]? = some ⟨.releasing key, doomed⟩) :
      Step budget crew
        { crew.move place ⟨afterRelease doomed, doomed⟩ with
          queue := crew.queue.done key
          log := .released place key :: crew.log }
  /-- The router or a resync adds a key, at once, after a delay, or when the limiter allows it. -/
  | add (key : Key) : Step budget crew { crew with queue := crew.queue.add key }
  | addAfter (key : Key) (delay : Nat) :
      Step budget crew { crew with queue := crew.queue.addAfter key delay }
  | addRateLimited (key : Key) :
      Step budget crew { crew with queue := crew.queue.addRateLimited key }
  | addCrash {key : Key} {point : CrashPoint (WorkQueue Key)}
      (crashes : point ∈ crew.queue.addCrashPoints key) :
      Step budget crew { crew with queue := point.left }
  | elapse {before after : List (DelayedAdd Key)} {delayed : DelayedAdd Key}
      (waits : crew.queue.delayed = before ++ delayed :: after) :
      Step budget crew
        { crew with queue := { crew.queue with delayed := before ++ after }.add delayed.item }
  | tick (limiter : Limiter Key) (now : Nat) :
      Step budget crew { crew with queue := { crew.queue with limiter, now } }
  | shutDown : Step budget crew { crew with queue := crew.queue.shutDown }

inductive Reachable (budget : Nat) : Crew → Prop where
  | start (limiter : Limiter Key) (workers : Nat) : Reachable budget (start limiter workers)
  | step {crew after : Crew} (earlier : Reachable budget crew) (stepped : Step budget crew after) :
      Reachable budget after

/-- The queue, the workers and the log agree about who has which key. -/
structure Orderly (crew : Crew) : Prop where
  queue : crew.queue.shared.queue.Exclusive
  held (key : Key) :
    key ∈ crew.queue.shared.queue.processing ↔ ∃ place, crew.held? place = some key
  logged (key : Key) :
    ∃ holder, Alternates key crew.log holder ∧
      ∀ place, holder = some place ↔ crew.held? place = some key

theorem held?_move {crew : Crew} {place : Nat} {old : Member}
    (there : crew.members[place]? = some old) (new : Member) (other : Nat) :
    (crew.move place new).held? other =
      if other = place then new.worker.held? else crew.held? other :=
  bind_getElem?_set there new (·.worker.held?) other

theorem held?_move_of_eq {crew : Crew} {place : Nat} {old new : Member}
    (there : crew.members[place]? = some old) (same : new.worker.held? = old.worker.held?) :
    (crew.move place new).held? = crew.held? := by
  funext other
  rw [held?_move there]
  split
  · next this_one =>
      subst this_one
      rw [same, held?, there]
      rfl
  · rfl

theorem nothing_got (place : Nat) {getter : Queue.Getter Key}
    (nothing : ∀ key, getter ≠ .finished (some key)) :
    Worker.held? (.getting getter) = none ∧ entry place getter = [] := by
  cases getter with
  | finished key? =>
      cases key? with
      | none => exact ⟨rfl, rfl⟩
      | some key => exact absurd rfl (nothing key)
  | fresh => exact ⟨rfl, rfl⟩
  | joined ticket? => exact ⟨rfl, rfl⟩
  | waiting ticket? => exact ⟨rfl, rfl⟩

theorem held?_afterSettling (key : Key) (decision : Decision) :
    (afterSettling key decision).held? = some key := by
  cases decision <;> rfl

theorem held?_afterRelease (doomed : Bool) : (afterRelease doomed).held? = none := by
  cases doomed <;> rfl

namespace Orderly

variable {crew after : Crew}

theorem start (limiter : Limiter Key) (workers : Nat) : (start limiter workers).Orderly := by
  have nobody (place : Nat) : (Crew.start limiter workers).held? place = none := by
    simp only [held?, Crew.start, List.getElem?_replicate]
    split <;> rfl
  refine ⟨Queue.Exclusive.empty, fun key => ?_, fun key => ⟨none, .empty, fun place => ?_⟩⟩
  · constructor
    · intro member
      cases member
    · rintro ⟨place, holds⟩
      simp [nobody] at holds
  · simp [nobody]

theorem unique (orderly : crew.Orderly) {first second : Nat} {key : Key}
    (one : crew.held? first = some key) (other : crew.held? second = some key) :
    first = second := by
  obtain ⟨holder, _, holds⟩ := orderly.logged key
  have same := (holds first).mpr one
  rw [(holds second).mpr other] at same
  exact (Option.some.inj same).symm

theorem frame (orderly : crew.Orderly) (kept : crew.queue.KeepsHeld after.queue)
    (hands : after.held? = crew.held?) (log : after.log = crew.log) : after.Orderly where
  queue := kept.exclusive orderly.queue
  held := fun key => by rw [kept.processing, hands]; exact orderly.held key
  logged := fun key => by rw [hands, log]; exact orderly.logged key

theorem get (orderly : crew.Orderly) {place : Nat} {old new : Member} {key : Key}
    {shared : Queue.Shared Key} (there : crew.members[place]? = some old)
    (idle : old.worker.held? = none) (has : new.worker.held? = some key)
    (taken : crew.queue.shared.queue.take? = some (key, shared.queue)) :
    Orderly { crew.move place new with
      queue := { crew.queue with shared }, log := .got place key :: crew.log } := by
  have free : key ∉ crew.queue.shared.queue.processing := orderly.queue.free_of_take? taken
  have hands := held?_move there new
  have empty : crew.held? place = none := by simp [held?, there, idle]
  obtain ⟨_, _, _, processing⟩ := Queue.take?_eq_some taken
  rw [List.insert_of_not_mem free] at processing
  refine ⟨orderly.queue.take? taken, fun other => ?_, fun other => ?_⟩
  · simp only [processing, List.mem_cons, orderly.held other]
    constructor
    · rintro (rfl | ⟨elsewhere, holds⟩)
      · exact ⟨place, (hands place).trans (by rw [if_pos rfl]; exact has)⟩
      · refine ⟨elsewhere, (hands elsewhere).trans ?_⟩
        have differ : elsewhere ≠ place := by rintro rfl; simp [empty] at holds
        rw [if_neg differ]
        exact holds
    · rintro ⟨elsewhere, holds⟩
      replace holds := (hands elsewhere).symm.trans holds
      split at holds
      · exact .inl (Option.some.inj (holds.symm.trans has))
      · exact .inr ⟨elsewhere, holds⟩
  · obtain ⟨holder, alternates, holds⟩ := orderly.logged other
    by_cases same : key = other
    · subst same
      -- The queue was not processing the key, so the last entry about it is a release.
      have nobody : ∀ elsewhere, crew.held? elsewhere ≠ some key :=
        fun elsewhere holds => free ((orderly.held key).mpr ⟨elsewhere, holds⟩)
      have vacant : holder = none := by
        cases holder with
        | none => rfl
        | some elsewhere => exact absurd ((holds elsewhere).mp rfl) (nobody elsewhere)
      subst vacant
      refine ⟨some place, .got alternates, fun elsewhere => ?_⟩
      refine Iff.trans ?_ (Eq.congr_left (hands elsewhere)).symm
      split
      · next this_one => simp [this_one, has]
      · next differ => simp [nobody elsewhere, Ne.symm differ]
    · refine ⟨holder, .other same alternates, fun elsewhere => (holds elsewhere).trans ?_⟩
      refine Iff.trans ?_ (Eq.congr_left (hands elsewhere)).symm
      split
      · next this_one => simp [this_one, empty, has, same]
      · rfl

theorem release (orderly : crew.Orderly) {place : Nat} {old new : Member} {key : Key}
    (there : crew.members[place]? = some old) (has : old.worker.held? = some key)
    (idle : new.worker.held? = none) :
    Orderly { crew.move place new with
      queue := crew.queue.done key, log := .released place key :: crew.log } := by
  have hands := held?_move there new
  have holds_it : crew.held? place = some key := by simp [held?, there, has]
  have member : key ∈ crew.queue.shared.queue.processing :=
    (orderly.held key).mpr ⟨place, holds_it⟩
  have processing := Queue.processing_done crew.queue.shared.queue key
  refine ⟨orderly.queue.done member, fun other => ?_, fun other => ?_⟩
  · have erased : other ∈ (crew.queue.done key).shared.queue.processing ↔
        other ≠ key ∧ other ∈ crew.queue.shared.queue.processing := by
      rw [WorkQueue.done, Queue.Shared.queue_done, processing]
      exact orderly.queue.processing_nodup.mem_erase_iff
    refine erased.trans ?_
    rw [orderly.held other]
    constructor
    · rintro ⟨differs, elsewhere, holds⟩
      refine ⟨elsewhere, (hands elsewhere).trans ?_⟩
      have differ : elsewhere ≠ place := by
        rintro rfl
        exact differs (Option.some.inj (holds.symm.trans holds_it))
      rw [if_neg differ]
      exact holds
    · rintro ⟨elsewhere, holds⟩
      replace holds := (hands elsewhere).symm.trans holds
      split at holds
      · simp [idle] at holds
      · next differ =>
          refine ⟨?_, elsewhere, holds⟩
          rintro rfl
          exact differ (orderly.unique holds holds_it)
  · obtain ⟨holder, alternates, holds⟩ := orderly.logged other
    by_cases same : key = other
    · subst same
      have holder_is := (holds place).mpr holds_it
      subst holder_is
      refine ⟨none, .released alternates, fun elsewhere => ?_⟩
      refine Iff.trans ?_ (Eq.congr_left (hands elsewhere)).symm
      split
      · simp [idle]
      · next differ =>
          have nobody : crew.held? elsewhere ≠ some key :=
            fun holds => differ (orderly.unique holds holds_it)
          simp [nobody]
    · refine ⟨holder, .other same alternates, fun elsewhere => (holds elsewhere).trans ?_⟩
      refine Iff.trans ?_ (Eq.congr_left (hands elsewhere)).symm
      split
      · next this_one => simp [this_one, holds_it, idle, same]
      · rfl

theorem step (orderly : crew.Orderly) {budget : Nat} (stepped : Step budget crew after) :
    after.Orderly := by
  cases stepped with
  | @get place doomed getter next shared there moved =>
      have idle := Worker.held?_of_step? moved
      rcases Queue.Getter.step?_queue moved with ⟨key, rfl, taken⟩ | ⟨same, nothing⟩
      · exact orderly.get there idle rfl taken
      · obtain ⟨still, silent⟩ := nothing_got place nothing
        exact orderly.frame (.of_queue same) (held?_move_of_eq there (still.trans idle.symm))
          (by rw [silent]; rfl)
  | stop there => exact orderly.frame (.of_queue rfl) (held?_move_of_eq there rfl) rfl
  | begin there => exact orderly.frame (.of_queue rfl) (held?_move_of_eq there rfl) rfl
  | pass result there => exact orderly.frame (.of_queue rfl) (held?_move_of_eq there rfl) rfl
  | @settle place key doomed result outcome there decided =>
      subst decided
      exact orderly.frame (Retry.handle_keepsHeld budget crew.queue key result)
        (held?_move_of_eq there (held?_afterSettling key _)) rfl
  | settleCrash there crashes =>
      exact orderly.frame (Retry.crashPoints_keepsHeld crashes) (held?_move_of_eq there rfl) rfl
  | limiterCrash limiter there =>
      exact orderly.frame (.of_queue rfl) (held?_move_of_eq there rfl) rfl
  | report crashed there => exact orderly.frame (.of_queue rfl) (held?_move_of_eq there rfl) rfl
  | @release place key doomed there => exact orderly.release there rfl (held?_afterRelease doomed)
  | add key => exact orderly.frame (.add crew.queue key) rfl rfl
  | addAfter key delay => exact orderly.frame (.addAfter crew.queue key delay) rfl rfl
  | addRateLimited key => exact orderly.frame (.addRateLimited crew.queue key) rfl rfl
  | addCrash crashes => exact orderly.frame (.addCrashPoints crashes) rfl rfl
  | @elapse before later delayed waits =>
      have dropped : crew.queue.KeepsHeld { crew.queue with delayed := before ++ later } :=
        .of_queue rfl
      exact orderly.frame (dropped.trans (.add _ delayed.item)) rfl rfl
  | tick limiter now => exact orderly.frame (.of_queue rfl) rfl rfl
  | shutDown => exact orderly.frame (.shutDown crew.queue) rfl rfl

theorem of_reachable {budget : Nat} (reachable : Reachable budget crew) : crew.Orderly := by
  induction reachable with
  | start limiter workers => exact start limiter workers
  | step earlier stepped ih => exact ih.step stepped

end Orderly

theorem move_there {crew : Crew} {place : Nat} {old : Member}
    (there : crew.members[place]? = some old) (new : Member) :
    (crew.move place new).members[place]? = some new := by
  have inside : place < crew.members.length := (List.getElem?_eq_some_iff.mp there).1
  simp [move, inside]

/-- How many steps a worker makes at most with the key it has in hand before it releases it. -/
def toGo : Worker → Nat
  | .getting _ => 4
  | .holding _ => 3
  | .settling _ _ => 2
  | .reporting _ _ => 1
  | _ => 0

theorem toGo_afterSettling (key : Key) (decision : Decision) :
    toGo (afterSettling key decision) ≤ 1 := by
  cases decision <;> simp [afterSettling, toGo]

/-- A worker with a key in hand can always move: it releases the key, or gets closer to that. -/
theorem advance (budget : Nat) {crew : Crew} {place : Nat} {member : Member} {key : Key}
    (there : crew.members[place]? = some member) (has : member.worker.held? = some key) :
    ∃ after, Step budget crew after ∧
      (after.log = .released place key :: crew.log ∨
        after.log = crew.log ∧ ∃ next, after.members[place]? = some next ∧
          next.worker.held? = some key ∧ toGo next.worker < toGo member.worker) := by
  obtain ⟨worker, doomed⟩ := member
  cases worker with
  | getting getter =>
      cases getter with
      | finished key? =>
          obtain rfl : key? = some key := has
          exact ⟨_, .begin there, .inr ⟨rfl, _, move_there there _, rfl, by simp [toGo]⟩⟩
      | fresh => contradiction
      | joined ticket? => contradiction
      | waiting ticket? => contradiction
  | holding own =>
      obtain rfl : own = key := Option.some.inj has
      exact ⟨_, .pass (.ok ()) there, .inr ⟨rfl, _, move_there there _, rfl, by simp [toGo]⟩⟩
  | settling own result =>
      obtain rfl : own = key := Option.some.inj has
      refine ⟨_, .settle there rfl, .inr ⟨rfl, _, move_there there _, ?_, ?_⟩⟩
      · exact held?_afterSettling own _
      · exact Nat.lt_succ_of_le (toGo_afterSettling own _)
  | reporting own message =>
      obtain rfl : own = key := Option.some.inj has
      exact ⟨_, .report false there, .inr ⟨rfl, _, move_there there _, rfl, by simp [toGo]⟩⟩
  | releasing own =>
      obtain rfl : own = key := Option.some.inj has
      exact ⟨_, .release there, .inl rfl⟩
  | stopped => contradiction

theorem releases (budget : Nat) {crew : Crew} {place : Nat} {member : Member} {key : Key}
    (there : crew.members[place]? = some member) (has : member.worker.held? = some key) :
    ∃ after, Relation.ReflTransGen (Step budget) crew after ∧
      after.log = .released place key :: crew.log := by
  induction steps : toGo member.worker using Nat.strongRecOn generalizing crew member with
  | _ count ih =>
      obtain ⟨after, stepped, released | ⟨log, next, moved, holds, closer⟩⟩ :=
        advance budget there has
      · exact ⟨after, .single stepped, released⟩
      · obtain ⟨last, path, released⟩ := ih _ (steps ▸ closer) moved holds rfl
        exact ⟨last, .head stepped path, released.trans (by rw [log])⟩

/-- Whatever the workers do and however it ends: no two of them have one key in hand, the queue is
processing exactly the keys that they have in hand, it holds no key twice and none that is being
processed, and every key that was handed out is released once, by the worker that got it, before it
is handed out again. Nothing keeps a worker from releasing the key it has in hand. -/
theorem exclusive_of_reachable {budget : Nat} {crew : Crew} (reachable : Reachable budget crew) :
    (∀ first second key, crew.held? first = some key → crew.held? second = some key →
      first = second) ∧
    (∀ key, key ∈ crew.queue.shared.queue.processing ↔ ∃ place, crew.held? place = some key) ∧
    crew.queue.shared.queue.ready.Nodup ∧
    (∀ key ∈ crew.queue.shared.queue.ready, key ∉ crew.queue.shared.queue.processing) ∧
    (∀ key, ∃ holder, Alternates key crew.log holder ∧
      ∀ place, holder = some place ↔ crew.held? place = some key) ∧
    ∀ place key, crew.held? place = some key →
      ∃ after, Relation.ReflTransGen (Step budget) crew after ∧
        after.log = .released place key :: crew.log := by
  have orderly := Orderly.of_reachable reachable
  refine ⟨fun first second key one other => orderly.unique one other, orderly.held,
    orderly.queue.ready_nodup, orderly.queue.ready_apart, orderly.logged, ?_⟩
  intro place key holds
  obtain ⟨member, there, has⟩ := Option.bind_eq_some_iff.mp holds
  exact releases budget there has

/-- One of two workers takes the only key, which was added again meanwhile and so is parked. -/
theorem exclusive_of_parked :
    let key : Key := ⟨some "default", "web"⟩
    ∃ crew : Crew, Reachable 1 crew ∧ crew.held? 1 = some key ∧ crew.held? 0 = none ∧
      key ∈ crew.queue.shared.queue.dirty ∧ key ∉ crew.queue.shared.queue.ready := by
  intro key
  have added : Reachable 1 _ := .step (.start (.longest []) 2) (.add key)
  have joined : Reachable 1 _ := .step added (.get 1 rfl rfl)
  have taken : Reachable 1 _ := .step joined (.get 1 rfl rfl)
  have again : Reachable 1 _ := .step taken (.add key)
  refine ⟨_, again, rfl, rfl, List.mem_singleton_self key, fun ready => ?_⟩
  obtain ⟨_, processing, _, apart, _, _⟩ := exclusive_of_reachable again
  exact apart key ready ((processing key).mpr ⟨1, rfl⟩)

end Crew

end ReconcileLoop

import ReconcileLoop.Proofs.Crew
import ReconcileLoop.Proofs.Limiter.Counts
import ReconcileLoop.Proofs.Queue.Ledger
import ReconcileLoop.Proofs.Retry.Numbering

namespace ReconcileLoop

/-! # No retry is lost

`Workshop` is a crew at a queue whose limiter is chosen by settings, with a log of which keys were
handed out and what was decided about them. Delays end when their time has come and not before. What
carries the proof is `WorkQueue.Comes`: the next pass for a key waits, or a delayed add will see to
it. Apart from handing out a key, ending a delay and the passing of time, all that is done to a
queue retains that (`WorkQueue.Retains`).
-/

namespace WorkQueue

variable {κ : Type} [DecidableEq κ] {queue before after last : WorkQueue κ} {limit : Nat} {item : κ}

omit [DecidableEq κ] in
/-- An item waits, or will do so once a delay has ended that is no longer than a limit. A delay ends
with a whole millisecond. -/
def Comes (queue : WorkQueue κ) (limit : Nat) (item : κ) : Prop :=
  item ∈ queue.shared.queue.dirty ∨
    ∃ delayed ∈ queue.delayed, delayed.item = item ∧
      Duration.ofMillis delayed.due < queue.now + limit + Duration.nanosPerMilli

/-- What an operation leaves as it was that neither hands out an item nor lets time pass. -/
structure Retains (before after : WorkQueue κ) : Prop where
  down : after.shared.queue.down = before.shared.queue.down
  parks (up : before.shared.queue.down = false) (parks : before.shared.queue.Parks) :
    after.shared.queue.Parks
  dirty : ∀ item ∈ before.shared.queue.dirty, item ∈ after.shared.queue.dirty
  delayed : before.delayed <+: after.delayed
  now : after.now = before.now
  cap : after.limiter.cap = before.limiter.cap

namespace Retains

omit [DecidableEq κ] in
theorem refl (queue : WorkQueue κ) : queue.Retains queue :=
  ⟨rfl, fun _ parks => parks, fun _ waits => waits, List.prefix_refl _, rfl, rfl⟩

omit [DecidableEq κ] in
theorem trans (first : before.Retains after) (second : after.Retains last) :
    before.Retains last where
  down := second.down.trans first.down
  parks := fun up parks => second.parks (first.down.trans up) (first.parks up parks)
  dirty := fun item waits => second.dirty item (first.dirty item waits)
  delayed := first.delayed.trans second.delayed
  now := second.now.trans first.now
  cap := second.cap.trans first.cap

omit [DecidableEq κ] in
theorem of_queue {shared : Queue.Shared κ} (same : shared.queue = queue.shared.queue) :
    queue.Retains { queue with shared } where
  down := by rw [same]
  parks := fun _ parks => by rw [same]; exact parks
  dirty := fun _ waits => by rw [same]; exact waits
  delayed := List.prefix_refl _
  now := rfl
  cap := rfl

theorem add (queue : WorkQueue κ) (item : κ) : queue.Retains (queue.add item) where
  down := Queue.down_add _ item
  parks := fun up parks => parks.add up item
  dirty := fun _ waits => Queue.mem_dirty_add_of_mem waits item
  delayed := List.prefix_refl _
  now := rfl
  cap := rfl

theorem addAfter (queue : WorkQueue κ) (item : κ) (delay : Nat) :
    queue.Retains (queue.addAfter item delay) := by
  unfold WorkQueue.addAfter
  split
  · exact refl queue
  · split
    · exact add queue item
    · exact { refl queue with delayed := List.prefix_append _ _ }

theorem addRateLimited (queue : WorkQueue κ) (item : κ) :
    queue.Retains (queue.addRateLimited item) := by
  have counted : queue.Retains { (queue.backOff item).2 with retries := queue.retries + 1 } :=
    { refl queue with cap := Limiter.cap_backOff queue.limiter }
  exact counted.trans (addAfter _ item _)

theorem done (queue : WorkQueue κ) (item : κ) : queue.Retains (queue.done item) where
  down := Queue.down_done _ item
  parks := fun up parks => parks.done up item
  dirty := by
    intro other waits
    rw [WorkQueue.done, Queue.Shared.queue_done, Queue.dirty_done]
    exact waits
  delayed := List.prefix_refl _
  now := rfl
  cap := rfl

theorem forget (queue : WorkQueue κ) (item : κ) : queue.Retains (queue.forget item) :=
  { refl queue with cap := Limiter.cap_forget queue.limiter }

omit [DecidableEq κ] in
theorem comes (retains : before.Retains after) (comes : before.Comes limit item) :
    after.Comes limit item := by
  rcases comes with waits | ⟨delayed, pending, same, soon⟩
  · exact .inl (retains.dirty item waits)
  · refine .inr ⟨delayed, retains.delayed.subset pending, same, ?_⟩
    rw [retains.now]
    exact soon

end Retains

theorem comes_addAfter (queue : WorkQueue κ) (item : κ) (up : queue.isDown = false) {delay : Nat}
    (short : delay ≤ limit) :
    (queue.addAfter item delay).Comes limit item := by
  by_cases instant : delay = 0
  · simp only [addAfter, up, instant, if_true]
    exact .inl ((Queue.mem_dirty_add up).mpr (.inl rfl))
  · have soon := Duration.ceilMillis_lt (queue.now + delay)
    simp only [addAfter, up, instant, Bool.false_eq_true, if_false]
    refine .inr ⟨_, List.mem_append_right _ (List.mem_singleton_self _), rfl, ?_⟩
    simp only
    omega

theorem comes_addRateLimited (up : queue.isDown = false) (item : κ) :
    (queue.addRateLimited item).Comes queue.limiter.cap item :=
  comes_addAfter { (queue.backOff item).2 with retries := queue.retries + 1 } item up
    (Limiter.backOff_le_cap queue.limiter)

end WorkQueue

namespace Retry

variable {budget : Nat} {queue : WorkQueue Key} {key : Key} {result : Except ReconcileError Unit}

theorem handle_retains : queue.Retains (handle budget queue key result).queue := by
  rcases handle_cases budget queue key result with
    ⟨_, _, _, _, decided⟩ | ⟨_, _, _, _, decided⟩ | ⟨_, _, _, decided⟩
  · rw [decided]
    exact .addRateLimited queue key
  · rw [decided]
    exact .forget queue key
  · rw [decided]
    exact .forget queue key

theorem comes_of_requeued {attempt : Nat} (up : queue.isDown = false)
    (requeued : (handle budget queue key result).decision = .requeued attempt) :
    (handle budget queue key result).queue.Comes queue.limiter.cap key := by
  rcases handle_cases budget queue key result with
    ⟨_, _, _, _, decided⟩ | ⟨_, _, _, _, decided⟩ | ⟨_, _, other, decided⟩
  · rw [decided]
    exact WorkQueue.comes_addRateLimited up key
  · simp [decided] at requeued
  · rw [decided] at requeued
    rcases other with rfl | rfl <;> contradiction

end Retry

/-- What matters about a key when it comes to retries. -/
inductive Milestone where
  | handed (key : Key)
  | decided (key : Key) (decision : Decision)

def Milestone.key : Milestone → Key
  | handed key => key
  | decided key _ => key

structure Workshop where
  crew : Crew
  /-- The newest first. -/
  log : List Milestone := []

namespace Workshop

/-- Whether a retry is the last that was decided about a key, which was not handed out since. -/
def AwaitsRetry (key : Key) (log : List Milestone) : Prop :=
  ∃ attempt, log.find? (·.key = key) = some (.decided key (.requeued attempt))

/-- The atomic steps of the workers, of those who add or forget keys, and of time, while nobody
shuts the queue down. -/
inductive Step (budget : Nat) (shop : Workshop) : Workshop → Prop where
  | get (place : Nat) {doomed : Bool} {getter next : Queue.Getter Key} {shared : Queue.Shared Key}
      (there : shop.crew.members[place]? = some ⟨.getting getter, doomed⟩)
      (moved : getter.step? shop.crew.queue.shared = some (shared, next)) :
      Step budget shop
        { crew := { shop.crew.move place ⟨.getting next, doomed⟩ with
            queue := { shop.crew.queue with shared }
            log := Crew.entry place next ++ shop.crew.log }
          log := next.taken?.toList.map .handed ++ shop.log }
  | stop {place : Nat} {doomed : Bool}
      (there : shop.crew.members[place]? = some ⟨.getting (.finished none), doomed⟩) :
      Step budget shop { shop with crew := shop.crew.move place ⟨.stopped, doomed⟩ }
  | begin {place : Nat} {key : Key} {doomed : Bool}
      (there : shop.crew.members[place]? = some ⟨.getting (.finished (some key)), doomed⟩) :
      Step budget shop { shop with crew := shop.crew.move place ⟨.holding key, doomed⟩ }
  | pass {place : Nat} {key : Key} {doomed : Bool} (result : Except ReconcileError Unit)
      (there : shop.crew.members[place]? = some ⟨.holding key, doomed⟩) :
      Step budget shop { shop with crew := shop.crew.move place ⟨.settling key result, doomed⟩ }
  | settle {place : Nat} {key : Key} {doomed : Bool} {result : Except ReconcileError Unit}
      {outcome : Retry.Outcome}
      (there : shop.crew.members[place]? = some ⟨.settling key result, doomed⟩)
      (decided : Retry.handle budget shop.crew.queue key result = outcome) :
      Step budget shop
        { crew := { shop.crew.move place ⟨Crew.afterSettling key outcome.decision, doomed⟩ with
            queue := outcome.queue }
          log := .decided key outcome.decision :: shop.log }
  | report {place : Nat} {key : Key} {message : String} {doomed : Bool} (crashed : Bool)
      (there : shop.crew.members[place]? = some ⟨.reporting key message, doomed⟩) :
      Step budget shop
        { shop with crew := shop.crew.move place ⟨.releasing key, doomed || crashed⟩ }
  | release {place : Nat} {key : Key} {doomed : Bool}
      (there : shop.crew.members[place]? = some ⟨.releasing key, doomed⟩) :
      Step budget shop
        { shop with crew := { shop.crew.move place ⟨Crew.afterRelease doomed, doomed⟩ with
            queue := shop.crew.queue.done key
            log := .released place key :: shop.crew.log } }
  | add (key : Key) :
      Step budget shop { shop with crew := { shop.crew with queue := shop.crew.queue.add key } }
  | addAfter (key : Key) (delay : Nat) :
      Step budget shop
        { shop with crew := { shop.crew with queue := shop.crew.queue.addAfter key delay } }
  | addRateLimited (key : Key) :
      Step budget shop
        { shop with crew := { shop.crew with queue := shop.crew.queue.addRateLimited key } }
  | forget (key : Key) :
      Step budget shop { shop with crew := { shop.crew with queue := shop.crew.queue.forget key } }
  | elapse {before after : List (DelayedAdd Key)} {delayed : DelayedAdd Key}
      (pending : shop.crew.queue.delayed = before ++ delayed :: after)
      (due : Duration.ofMillis delayed.due ≤ shop.crew.queue.now) :
      Step budget shop
        { shop with crew := { shop.crew with
            queue := { shop.crew.queue with delayed := before ++ after }.add delayed.item } }
  | wait (later : Nat) (onward : shop.crew.queue.now ≤ later) :
      Step budget shop
        { shop with crew := { shop.crew with queue := { shop.crew.queue with now := later } } }

inductive Reachable (settings : Settings) : Workshop → Prop where
  | start (workers : Nat) : Reachable settings { crew := Crew.start (settings.limiter 0) workers }
  | step {shop after : Workshop} (earlier : Reachable settings shop)
      (stepped : Step settings.maxRetries shop after) : Reachable settings after

theorem Step.crew {budget : Nat} {shop after : Workshop} (stepped : Step budget shop after) :
    Crew.Step budget shop.crew after.crew := by
  cases stepped with
  | get place there moved => exact .get place there moved
  | stop there => exact .stop there
  | begin there => exact .begin there
  | pass result there => exact .pass result there
  | settle there decided => exact .settle there decided
  | report crashed there => exact .report crashed there
  | release there => exact .release there
  | add key => exact .add key
  | addAfter key delay => exact .addAfter key delay
  | addRateLimited key => exact .addRateLimited key
  | forget key => exact .tick _ shop.crew.queue.now
  | elapse pending due => exact .elapse pending
  | wait later onward => exact .tick shop.crew.queue.limiter later

theorem awaitsRetry_handed (key other : Key) (log : List Milestone) :
    AwaitsRetry key (.handed other :: log) ↔ other ≠ key ∧ AwaitsRetry key log := by
  by_cases same : other = key <;> simp [AwaitsRetry, Milestone.key, same]

theorem awaitsRetry_decided (key other : Key) (decision : Decision) (log : List Milestone) :
    AwaitsRetry key (.decided other decision :: log) ↔
      if other = key then ∃ attempt, decision = .requeued attempt else AwaitsRetry key log := by
  by_cases same : other = key <;> simp [AwaitsRetry, Milestone.key, same]

/-- No delay that the limiter asks for is longer. -/
def longest (settings : Settings) : Nat := max settings.retryLimit Limiter.Bucket.longestWait

structure Kept (settings : Settings) (shop : Workshop) : Prop where
  orderly : shop.crew.Orderly
  up : shop.crew.queue.shared.queue.down = false
  parks : shop.crew.queue.shared.queue.Parks
  cap : shop.crew.queue.limiter.cap = longest settings
  comes (key : Key) (awaits : AwaitsRetry key shop.log) :
    shop.crew.queue.Comes (longest settings) key

namespace Kept

variable {settings : Settings} {shop after : Workshop}

theorem start (workers : Nat) :
    Kept settings { crew := Crew.start (settings.limiter 0) workers } where
  orderly := .start _ workers
  up := rfl
  parks := by
    intro key waits
    cases waits
  cap := Limiter.cap_combined ..
  comes := by
    rintro key ⟨attempt, found⟩
    cases found

theorem frame (kept : shop.Kept settings) (orderly : after.crew.Orderly)
    (retains : shop.crew.queue.Retains after.crew.queue)
    (comes : ∀ key, AwaitsRetry key after.log →
      AwaitsRetry key shop.log ∨ after.crew.queue.Comes (longest settings) key) :
    after.Kept settings where
  orderly := orderly
  up := retains.down.trans kept.up
  parks := retains.parks kept.up kept.parks
  cap := retains.cap.trans kept.cap
  comes := by
    intro key awaits
    rcases comes key awaits with before | now
    · exact retains.comes (kept.comes key before)
    · exact now

theorem get (kept : shop.Kept settings) {getter next : Queue.Getter Key}
    {shared : Queue.Shared Key} (moved : getter.step? shop.crew.queue.shared = some (shared, next))
    {crew : Crew} (orderly : crew.Orderly)
    (queue : crew.queue = { shop.crew.queue with shared }) :
    Kept settings { crew, log := next.taken?.toList.map .handed ++ shop.log } := by
  rcases Queue.Getter.step?_taken? moved with ⟨key, got, taken⟩ | ⟨nothing, same⟩
  · obtain ⟨_, _, dirty, _⟩ := Queue.take?_eq_some taken
    rw [got]
    refine ⟨orderly, ?_, ?_, ?_, fun asked awaits => ?_⟩
    · rw [queue]
      exact Queue.down_of_take? taken
    · rw [queue]
      exact kept.parks.take? taken
    · rw [queue]
      exact kept.cap
    · obtain ⟨differs, before⟩ := (awaitsRetry_handed ..).mp awaits
      rw [queue]
      rcases kept.comes asked before with waits | delayed
      · refine .inl ?_
        simp only [dirty]
        exact (List.mem_erase_of_ne (Ne.symm differs)).mpr waits
      · exact .inr delayed
  · have retains : shop.crew.queue.Retains crew.queue := by
      rw [queue]
      exact .of_queue same
    rw [nothing]
    exact kept.frame orderly retains (fun asked awaits => .inl awaits)

theorem settle (kept : shop.Kept settings) {budget : Nat} {key : Key}
    {result : Except ReconcileError Unit} {outcome : Retry.Outcome}
    (decided : Retry.handle budget shop.crew.queue key result = outcome) {crew : Crew}
    (orderly : crew.Orderly) (queue : crew.queue = outcome.queue) :
    Kept settings { crew, log := .decided key outcome.decision :: shop.log } := by
  subst decided
  have retains : shop.crew.queue.Retains crew.queue := by
    rw [queue]
    exact Retry.handle_retains
  refine kept.frame orderly retains (fun asked awaits => ?_)
  rw [awaitsRetry_decided] at awaits
  split at awaits
  · next same =>
      subst same
      obtain ⟨attempt, requeued⟩ := awaits
      rw [queue, ← kept.cap]
      exact .inr (Retry.comes_of_requeued kept.up requeued)
  · exact .inl awaits

theorem elapse (kept : shop.Kept settings) {before later : List (DelayedAdd Key)}
    {delayed : DelayedAdd Key}
    (pending : shop.crew.queue.delayed = before ++ delayed :: later) {crew : Crew}
    (orderly : crew.Orderly)
    (queue : crew.queue =
      { shop.crew.queue with delayed := before ++ later }.add delayed.item) :
    Kept settings { shop with crew } where
  orderly := orderly
  up := by
    rw [queue]
    exact (Queue.down_add ..).trans kept.up
  parks := by
    rw [queue]
    exact kept.parks.add kept.up _
  cap := by
    rw [queue]
    exact kept.cap
  comes := by
    intro key awaits
    rw [queue]
    rcases kept.comes key awaits with waits | ⟨other, member, same, soon⟩
    · exact .inl (Queue.mem_dirty_add_of_mem waits _)
    · rw [pending, List.mem_append, List.mem_cons] at member
      rcases member with first | rfl | last
      · exact .inr ⟨other, List.mem_append_left _ first, same, soon⟩
      · exact .inl ((Queue.mem_dirty_add kept.up).mpr (.inl same.symm))
      · exact .inr ⟨other, List.mem_append_right _ last, same, soon⟩

theorem wait (kept : shop.Kept settings) {later : Nat} (onward : shop.crew.queue.now ≤ later)
    {crew : Crew} (orderly : crew.Orderly)
    (queue : crew.queue = { shop.crew.queue with now := later }) :
    Kept settings { shop with crew } where
  orderly := orderly
  up := by
    rw [queue]
    exact kept.up
  parks := by
    rw [queue]
    exact kept.parks
  cap := by
    rw [queue]
    exact kept.cap
  comes := by
    intro key awaits
    rw [queue]
    rcases kept.comes key awaits with waits | ⟨delayed, member, same, soon⟩
    · exact .inl waits
    · refine .inr ⟨delayed, member, same, ?_⟩
      simp only
      omega

theorem step (kept : shop.Kept settings) (stepped : Step settings.maxRetries shop after) :
    after.Kept settings := by
  have orderly := kept.orderly.step stepped.crew
  have retained (log : after.log = shop.log)
      (retains : shop.crew.queue.Retains after.crew.queue) : after.Kept settings :=
    kept.frame orderly retains (fun key awaits => .inl (log ▸ awaits))
  cases stepped with
  | get place there moved => exact kept.get moved orderly rfl
  | stop there => exact retained rfl (.refl _)
  | begin there => exact retained rfl (.refl _)
  | pass result there => exact retained rfl (.refl _)
  | settle there decided => exact kept.settle decided orderly rfl
  | report crashed there => exact retained rfl (.refl _)
  | release there => exact retained rfl (.done _ _)
  | add key => exact retained rfl (.add _ key)
  | addAfter key delay => exact retained rfl (.addAfter _ key delay)
  | addRateLimited key => exact retained rfl (.addRateLimited _ key)
  | forget key => exact retained rfl (.forget _ key)
  | elapse pending due => exact kept.elapse pending orderly rfl
  | wait later onward => exact kept.wait onward orderly rfl

theorem of_reachable (reachable : Reachable settings shop) : shop.Kept settings := by
  induction reachable with
  | start workers => exact start workers
  | step earlier stepped ih => exact ih.step stepped

end Kept

/-- What a step does to the delayed adds: it appends some, or ends one that is due. -/
theorem Step.delayed {budget : Nat} {shop after : Workshop} (stepped : Step budget shop after)
    (up : shop.crew.queue.shared.queue.down = false) :
    shop.crew.queue.delayed <+: after.crew.queue.delayed ∨
      ∃ earlier delayed later, shop.crew.queue.delayed = earlier ++ delayed :: later ∧
        after.crew.queue.delayed = earlier ++ later ∧
        Duration.ofMillis delayed.due ≤ shop.crew.queue.now ∧
        delayed.item ∈ after.crew.queue.shared.queue.dirty := by
  cases stepped with
  | settle there decided =>
      subst decided
      exact .inl Retry.handle_retains.delayed
  | addAfter key delay => exact .inl (WorkQueue.Retains.addAfter _ key delay).delayed
  | addRateLimited key => exact .inl (WorkQueue.Retains.addRateLimited _ key).delayed
  | elapse pending due =>
      exact .inr ⟨_, _, _, pending, rfl, due, (Queue.mem_dirty_add up).mpr (.inl rfl)⟩
  | _ => exact .inl (List.prefix_refl _)

/-- Whatever happens at a queue that is up, a key that is to be tried again and was not handed out
since waits in line, or is parked with the worker that holds it, or will be added again by a delay
that is no longer than the limiter's longest. No such delay is ever cancelled: it stays until it
ends, and with that the key waits. -/
theorem retried_of_reachable {settings : Settings} {shop : Workshop}
    (reachable : Reachable settings shop) :
    (∀ key, AwaitsRetry key shop.log →
      key ∈ shop.crew.queue.shared.queue.ready ∨
      (key ∈ shop.crew.queue.shared.queue.dirty ∧
        ∃ place, shop.crew.held? place = some key) ∨
      ∃ delayed ∈ shop.crew.queue.delayed, delayed.item = key ∧
        Duration.ofMillis delayed.due < shop.crew.queue.now +
          max settings.retryLimit (Duration.ofSeconds 1000) + Duration.nanosPerMilli) ∧
    ∀ after, Step settings.maxRetries shop after →
      shop.crew.queue.delayed <+: after.crew.queue.delayed ∨
      ∃ earlier delayed later, shop.crew.queue.delayed = earlier ++ delayed :: later ∧
        after.crew.queue.delayed = earlier ++ later ∧
        Duration.ofMillis delayed.due ≤ shop.crew.queue.now ∧
        delayed.item ∈ after.crew.queue.shared.queue.dirty := by
  have kept := Kept.of_reachable reachable
  refine ⟨fun key awaits => ?_, fun after stepped => stepped.delayed kept.up⟩
  rcases kept.comes key awaits with waits | delayed
  · rcases kept.parks key waits with ready | held
    · exact .inl ready
    · exact .inr (.inl ⟨waits, (kept.orderly.held key).mp held⟩)
  · exact .inr (.inr delayed)

/-- A pass for the only key times out, and the only worker has not released the key yet. -/
theorem retried_of_timeout :
    let key : Key := ⟨some "default", "web"⟩
    let settings : Settings := { maxRetries := 1, retryLimit := Duration.ofSeconds 60 }
    ∃ shop : Workshop, Reachable settings shop ∧ AwaitsRetry key shop.log ∧
      (key ∈ shop.crew.queue.shared.queue.ready ∨
        (key ∈ shop.crew.queue.shared.queue.dirty ∧
          ∃ place, shop.crew.held? place = some key) ∨
        ∃ delayed ∈ shop.crew.queue.delayed, delayed.item = key ∧
          Duration.ofMillis delayed.due < shop.crew.queue.now +
            Duration.ofSeconds 1000 + Duration.nanosPerMilli) := by
  intro key settings
  let timeout : Except ReconcileError Unit := .error (.store (.transient "timeout"))
  have added : Reachable settings _ := .step (.start 1) (.add key)
  have joined : Reachable settings _ := .step added (.get 0 rfl rfl)
  have taken : Reachable settings _ := .step joined (.get 0 rfl rfl)
  have begun : Reachable settings _ := .step taken (@Step.begin _ _ 0 key false rfl)
  have failed : Reachable settings _ := .step begun (@Step.pass _ _ 0 key false timeout rfl)
  have settled : Reachable settings _ :=
    .step failed (@Step.settle _ _ 0 key false timeout _ rfl rfl)
  exact ⟨_, settled, ⟨1, rfl⟩, (retried_of_reachable settled).1 key ⟨1, rfl⟩⟩

end Workshop

end ReconcileLoop

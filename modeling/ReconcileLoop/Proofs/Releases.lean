import Mathlib.Data.List.Chain
import ReconcileLoop.Proofs.Counter

namespace ReconcileLoop

/-! # Releasing what nobody holds

Nobody who uses a work queue is kept from releasing an item that is not held, or from releasing one
twice. Mostly that does nothing. But if the item is in line at that moment, the queue takes it for
one that was added again while it was held, and puts it in line a second time. `Counter.Run` is a run
in which any calls are made, and `Counter.deduplicated_iff` says that no item is in line twice, or
handed out while it is out, exactly as long as no item is released while it is in line.
-/

variable {κ : Type} [DecidableEq κ]

namespace Queue

namespace Ledger

omit [DecidableEq κ] in
/-- Whether an item was handed out and not released since. -/
def Out (item : κ) : Ledger κ → Prop
  | [] => False
  | .added _ :: earlier => Out item earlier
  | .handed other :: earlier => other = item ∨ Out item earlier
  | .released other :: earlier => other ≠ item ∧ Out item earlier

omit [DecidableEq κ] in
/-- Whether nothing was handed out that was out. -/
def Fair : Ledger κ → Prop
  | [] => True
  | .added _ :: earlier => Fair earlier
  | .handed item :: earlier => ¬Out item earlier ∧ Fair earlier
  | .released _ :: earlier => Fair earlier

omit [DecidableEq κ] in
theorem Fair.not_out {newer earlier : Ledger κ} {item : κ}
    (fair : Fair (newer ++ .handed item :: earlier)) : ¬Out item earlier := by
  induction newer with
  | nil => exact fair.1
  | cons entry rest ih =>
      cases entry with
      | added other => exact ih fair
      | handed other => exact ih fair.2
      | released other => exact ih fair

end Ledger

/-- What holds of a queue that is shut down at most, and where nothing is released that is in line. -/
structure Orderly (queue : Queue κ) : Prop where
  exclusive : queue.Exclusive
  parks : queue.Parks
  emptied (down : queue.down = true) : queue.dirty = []

/-- To release what is neither held nor waits does nothing. -/
theorem done_of_free {queue : Queue κ} {item : κ} (clean : item ∉ queue.dirty)
    (free : item ∉ queue.processing) : queue.done item = queue := by
  simp [done, clean, List.erase_of_not_mem free]

theorem not_nodup_done {queue : Queue κ} {item : κ} (ready : item ∈ queue.ready)
    (waits : item ∈ queue.dirty) (up : queue.down = false) : ¬(queue.done item).ready.Nodup := by
  rw [ready_done, if_pos ⟨waits, up⟩, List.nodup_append]
  exact fun ⟨_, _, apart⟩ => apart item ready item (List.mem_singleton.mpr rfl) rfl

namespace Orderly

variable {queue after : Queue κ} {item : κ}

omit [DecidableEq κ] in
theorem empty : ({} : Queue κ).Orderly where
  exclusive := .empty
  parks := by simp [Parks]
  emptied down := by contradiction

theorem add (orderly : queue.Orderly) (item : κ) : (queue.add item).Orderly := by
  cases down : queue.down with
  | true =>
      have same : queue.add item = queue := by simp [Queue.add, down]
      rwa [same]
  | false =>
      refine ⟨orderly.exclusive.add item, orderly.parks.add down item, fun shut => ?_⟩
      rw [down_add, down] at shut
      contradiction

theorem take? (orderly : queue.Orderly) (taken : queue.take? = some (item, after)) :
    after.Orderly := by
  refine ⟨orderly.exclusive.take? taken, orderly.parks.take? taken, fun shut => ?_⟩
  rw [down_of_take? taken] at shut
  contradiction

omit [DecidableEq κ] in
theorem shutDown (orderly : queue.Orderly) : queue.shutDown.Orderly where
  exclusive := orderly.exclusive.shutDown
  parks := by simp [Parks]
  emptied _ := rfl

omit [DecidableEq κ] in
/-- What is in line waits, and the queue is not down. -/
theorem up_of_ready (orderly : queue.Orderly) (ready : item ∈ queue.ready) :
    item ∈ queue.dirty ∧ queue.down = false := by
  have waits := orderly.exclusive.ready_dirty item ready
  refine ⟨waits, Bool.eq_false_iff.mpr fun down => ?_⟩
  rw [orderly.emptied down] at waits
  contradiction

theorem done (orderly : queue.Orderly) (unready : item ∉ queue.ready) :
    (queue.done item).Orderly := by
  by_cases held : item ∈ queue.processing
  · refine ⟨orderly.exclusive.done held, ?_, fun shut => ?_⟩
    · cases down : queue.down with
      | true => simp [Parks, orderly.emptied down]
      | false => exact orderly.parks.done down item
    · rw [down_done] at shut
      rw [dirty_done]
      exact orderly.emptied shut
  · -- What is neither held nor in line does not wait either, so nothing changes.
    have clean : item ∉ queue.dirty := fun waits =>
      (orderly.parks item waits).elim unready held
    rwa [done_of_free clean held]

end Orderly

/-- A queue holds back what is out according to a ledger. -/
structure Tracks (queue : Queue κ) (ledger : Ledger κ) : Prop where
  orderly : queue.Orderly
  out (item : κ) : Ledger.Out item ledger ↔ item ∈ queue.processing
  fair : ledger.Fair

namespace Tracks

variable {queue after : Queue κ} {ledger : Ledger κ} {item : κ}

omit [DecidableEq κ] in
theorem empty : ({} : Queue κ).Tracks [] where
  orderly := .empty
  out item := by simp [Ledger.Out]
  fair := trivial

omit [DecidableEq κ] in
/-- What was added does not matter to what is out. -/
theorem note (tracks : queue.Tracks ledger) (item : κ) : queue.Tracks (.added item :: ledger) :=
  ⟨tracks.orderly, tracks.out, tracks.fair⟩

theorem add (tracks : queue.Tracks ledger) (item : κ) : (queue.add item).Tracks ledger where
  orderly := tracks.orderly.add item
  out other := by rw [processing_add, tracks.out]
  fair := tracks.fair

theorem take? (tracks : queue.Tracks ledger) (taken : queue.take? = some (item, after)) :
    after.Tracks (.handed item :: ledger) where
  orderly := tracks.orderly.take? taken
  out other := by
    obtain ⟨_, _, _, processing⟩ := take?_eq_some taken
    rw [processing, List.mem_insert_iff, ← tracks.out, Ledger.Out, eq_comm]
  fair := by
    refine ⟨fun out => ?_, tracks.fair⟩
    exact tracks.orderly.exclusive.free_of_take? taken ((tracks.out item).mp out)

theorem done (tracks : queue.Tracks ledger) (unready : item ∉ queue.ready) :
    (queue.done item).Tracks (.released item :: ledger) where
  orderly := tracks.orderly.done unready
  out other := by
    rw [processing_done, tracks.orderly.exclusive.processing_nodup.mem_erase_iff, ← tracks.out,
      Ledger.Out, ne_comm]
  fair := tracks.fair

omit [DecidableEq κ] in
theorem shutDown (tracks : queue.Tracks ledger) : queue.shutDown.Tracks ledger :=
  ⟨tracks.orderly.shutDown, tracks.out, tracks.fair⟩

end Tracks

end Queue

namespace Counter

/-- Any call may be made at any time. -/
def Free (_ : Queue.Ledger κ) (_ : WorkQueue.Call κ) : Prop := True

/-- The states that a work queue goes through with those who use it, the last one first. -/
inductive Run : List (Counter κ) → Prop where
  | start (limiter : Limiter κ) : Run [{ queue := { limiter } }]
  | step {counter after : Counter κ} {earlier : List (Counter κ)} (run : Run (counter :: earlier))
      (stepped : Step Free counter after) : Run (after :: counter :: earlier)

/-- No item is in line twice, or while it is held, and none was ever handed out that was out. -/
structure Deduplicated (counter : Counter κ) : Prop where
  once : counter.queue.shared.queue.ready.Nodup
  apart : ∀ item ∈ counter.queue.shared.queue.ready, item ∉ counter.queue.shared.queue.processing
  returned (newer : Queue.Ledger κ) (item : κ) (earlier : Queue.Ledger κ)
    (handed : counter.ledger = newer ++ .handed item :: earlier) : ¬Queue.Ledger.Out item earlier

def release (counter : Counter κ) (item : κ) : Counter κ :=
  { counter with
    queue := counter.queue.done item
    ledger := .released item :: counter.ledger }

/-- Whether a step releases an item that is in line. -/
def Strays (before after : Counter κ) : Prop :=
  ∃ item ∈ before.queue.shared.queue.ready, after = before.release item

def Sound (counter : Counter κ) : Prop := counter.queue.shared.queue.Tracks counter.ledger

variable {counter after : Counter κ}

omit [DecidableEq κ] in
theorem Sound.deduplicated (sound : counter.Sound) : counter.Deduplicated where
  once := sound.orderly.exclusive.ready_nodup
  apart := sound.orderly.exclusive.ready_apart
  returned _ _ _ handed := Queue.Ledger.Fair.not_out (handed ▸ sound.fair)

theorem Sound.not_deduplicated (sound : counter.Sound) (strays : Strays counter after) :
    ¬after.Deduplicated := by
  obtain ⟨item, ready, rfl⟩ := strays
  obtain ⟨waits, up⟩ := sound.orderly.up_of_ready ready
  exact fun deduplicated => Queue.not_nodup_done ready waits up deduplicated.once

theorem tracks_addAfter {queue : WorkQueue κ} {ledger : Queue.Ledger κ}
    (tracks : queue.shared.queue.Tracks ledger) (item : κ) (delay : Nat) :
    (queue.addAfter item delay).shared.queue.Tracks ledger := by
  rcases queue.shared_addAfter item delay with same | added
  · rwa [same]
  · rw [added]
    exact tracks.add item

/-- A call that releases nothing leaves alone what is out. -/
theorem tracks_perform {queue : WorkQueue κ} {ledger : Queue.Ledger κ} {call : WorkQueue.Call κ}
    (tracks : queue.shared.queue.Tracks ledger) (keeps : ∀ item, call ≠ .done item) :
    (queue.perform call).shared.queue.Tracks (queue.entries call ++ ledger) := by
  cases call with
  | add item => exact (tracks.add item).note item
  | addAfter item delay =>
      have later := tracks_addAfter tracks item delay
      simp only [WorkQueue.entries]
      split
      · exact later.note item
      · exact later
  | addRateLimited item =>
      have counted : { (queue.backOff item).2 with retries := queue.retries + 1 }.shared.queue.Tracks
          ledger := tracks
      have later := tracks_addAfter counted item (queue.backOff item).1
      simp only [WorkQueue.entries]
      split
      · exact later.note item
      · exact later
  | done item => exact absurd rfl (keeps item)
  | forget item => exact tracks
  | shutDown =>
      rcases Queue.Shared.queue_shutDown queue.shared with same | down
      · simp only [WorkQueue.perform, WorkQueue.shutDown, same]
        exact tracks
      · simp only [WorkQueue.perform, WorkQueue.shutDown, down]
        exact tracks.shutDown

theorem Sound.step (sound : counter.Sound) (stepped : Step Free counter after)
    (neat : ¬Strays counter after) : after.Sound := by
  cases stepped with
  | call call allowed =>
      by_cases keeps : ∀ item, call ≠ .done item
      · exact tracks_perform sound keeps
      · -- Only a release can go wrong, and this one is not of an item in line.
        obtain ⟨item, released⟩ := not_forall_not.mp keeps
        subst released
        exact Queue.Tracks.done sound fun ready => neat ⟨item, ready, rfl⟩
  | come => exact sound
  | get place there moved =>
      rcases Queue.Getter.step?_taken? moved with ⟨item, got, taken⟩ | ⟨nothing, same⟩
      · simp only [Sound, got]
        exact Queue.Tracks.take? sound taken
      · simp only [Sound, nothing, same]
        exact sound
  | leave place there => simpa only [Sound, Queue.Shared.queue_leave] using sound
  | elapse pending due => exact (Queue.Tracks.add sound _).note _
  | wait later onward => exact sound

theorem sound_of_neat {states : List (Counter κ)} (run : Run states)
    (neat : states.IsChain fun after before => ¬Strays before after) :
    ∀ counter ∈ states, counter.Sound := by
  induction run with
  | start limiter =>
      intro counter only
      rw [List.mem_singleton] at only
      subst only
      exact Queue.Tracks.empty
  | step run stepped ih =>
      obtain ⟨here, before⟩ := List.isChain_cons_cons.mp neat
      have sound := ih before
      refine List.forall_mem_cons.mpr ⟨?_, sound⟩
      exact (sound _ (List.mem_cons_self ..)).step stepped here

/-- Whatever calls are made, and in whatever order: no item is ever in line twice, or while it is
held, and none is handed out that was handed out and not released since, exactly if no item is ever
released while it is in line. -/
theorem deduplicated_iff {states : List (Counter κ)} (run : Run states) :
    (∀ counter ∈ states, counter.Deduplicated) ↔
      states.IsChain fun after before => ¬Strays before after := by
  refine ⟨fun all => ?_, fun neat counter member =>
    (sound_of_neat run neat counter member).deduplicated⟩
  induction run with
  | start limiter => exact List.isChain_singleton _
  | step run stepped ih =>
      obtain ⟨here, before⟩ := List.forall_mem_cons.mp all
      have neat := ih before
      refine List.isChain_cons_cons.mpr ⟨fun strays => ?_, neat⟩
      have sound := sound_of_neat run neat _ (List.mem_cons_self ..)
      exact sound.not_deduplicated strays here

def calling (counter : Counter κ) (call : WorkQueue.Call κ) : Counter κ :=
  { counter with
    queue := counter.queue.perform call
    ledger := counter.queue.entries call ++ counter.ledger }

theorem Run.calling {earlier : List (Counter κ)} (run : Run (counter :: earlier))
    (call : WorkQueue.Call κ) : Run (counter.calling call :: counter :: earlier) :=
  .step run (.call call trivial)

def fresh : Counter Nat := { queue := { limiter := .longest [] } }

/-- Items that are neither held nor in line may be released by anybody. -/
theorem deduplicated_of_released :
    let released := fresh.calling (.done 7)
    let added := released.calling (.add 7)
    let states := [added.calling (.done 8), added, released, fresh]
    Run states ∧ (states.IsChain fun after before => ¬Strays before after) ∧
      ∀ counter ∈ states, counter.Deduplicated := by
  intro released added states
  have run : Run states := (((Run.start _).calling _).calling _).calling _
  have first : ¬Strays fresh released := fun ⟨_, ready, _⟩ => nomatch ready
  have second : ¬Strays released added := fun ⟨_, ready, _⟩ => nomatch ready
  have third : ¬Strays added (added.calling (.done 8)) := by
    rintro ⟨item, ready, same⟩
    obtain rfl : item = 7 := List.mem_singleton.mp ready
    have other : some (Queue.Entry.released 8) = some (.released 7) :=
      congrArg (·.ledger.head?) same
    contradiction
  have neat : states.IsChain fun after before => ¬Strays before after :=
    .cons_cons third (.cons_cons second (.cons_cons first (.singleton _)))
  exact ⟨run, neat, (deduplicated_iff run).mpr neat⟩

/-- An item that is released before it is handed out is in line twice. -/
theorem not_deduplicated_of_stray :
    ¬∀ states : List (Counter Nat), Run states → ∀ counter ∈ states, counter.Deduplicated := by
  intro claimed
  have run := ((Run.start (κ := Nat) (.longest [])).calling (.add 7)).calling (.done 7)
  have once := (claimed _ run _ (List.mem_cons_self ..)).once
  have twice : ¬[7, 7].Nodup := by decide
  exact twice once

end Counter

end ReconcileLoop

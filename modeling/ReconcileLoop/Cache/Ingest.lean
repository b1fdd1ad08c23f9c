import ReconcileLoop.Cache.Index
import ReconcileLoop.Metrics
import ReconcileLoop.Watch.Channel

namespace ReconcileLoop

/-! # Taking in deltas

A cache is fed through a channel of bounded capacity. Its task takes what has arrived as one batch,
publishes the view after the whole batch, and only then hands the notifications of the batch on,
one by one; that the cache has synced is signalled after the last of them. So whoever is notified
finds a view that is at least as new.
-/

/-- What the task of a cache does next. -/
inductive IngestStage (α : Type) where
  | idle
  /-- Hands on the notifications of the batch that was published last. -/
  | notifying (rest : List (Notification α))
  | ended
deriving Inhabited

/-- A cache with its channel and its task. -/
structure Ingest (α : Type) where
  channel : Channel (Delta α)
  index : Index α := {}
  snapshot : Snapshot α := {}
  stage : IngestStage α := .idle
  synced : Bool := false
  deltas : Nat := 0
deriving Inhabited

namespace Ingest

variable {α : Type}

def batchLimit : Nat := 256

def ofCapacity (capacity : Nat) : Ingest α := { channel := .ofCapacity capacity }

def hasEnded (ingest : Ingest α) : Bool :=
  match ingest.stage with
  | .ended => true
  | _ => false

def metrics (kind : String) (ingest : Ingest α) : List (Series × Nat) :=
  if ingest.snapshot.epoch = 0 then []
  else
    [(⟨.cacheObjects, [("kind", kind)]⟩, ingest.snapshot.size),
      (⟨.cacheDeltas, [("kind", kind)]⟩, ingest.deltas)]

variable [Resource α]

def publish (ingest : Ingest α) (batch : List (Delta α)) : Ingest α :=
  let (index, notes) := ingest.index.apply batch
  { ingest with
    channel := ingest.channel.drop batch.length
    index
    snapshot := index.freeze
    stage := .notifying notes
    deltas := ingest.deltas + batch.length }

/-- The next step of the task, with the notification that it hands on, if it hands on one; none if
the task waits for deltas or has ended. -/
def step? (ingest : Ingest α) : Option (Ingest α × Option (Notification α)) :=
  match ingest.stage with
  | .idle =>
      match ingest.channel.buffered.take batchLimit with
      | [] =>
          if ingest.channel.sending then none
          else some ({ ingest with stage := .ended, channel := ingest.channel.closeReceiver }, none)
      | batch => some (ingest.publish batch, none)
  | .notifying (note :: rest) => some ({ ingest with stage := .notifying rest }, some note)
  | .notifying [] =>
      some ({ ingest with stage := .idle, synced := ingest.synced || ingest.index.synced }, none)
  | .ended => none

/-- Runs the task until it waits, or the fuel is used up. Each notification that was handed on comes
with the view at that time. -/
def drain (ingest : Ingest α) : Nat → Ingest α × List (Notification α × Snapshot α)
  | 0 => (ingest, [])
  | fuel + 1 =>
      match ingest.step? with
      | none => (ingest, [])
      | some (after, none) => after.drain fuel
      | some (after, some note) =>
          let (last, notes) := after.drain fuel
          (last, (note, after.snapshot) :: notes)

end Ingest

/-- What somebody who waits for a cache to sync can see of it. -/
structure SyncSignal where
  synced : Bool
  /-- Whether the task of the cache has ended, so that the signal will not change any more. -/
  ended : Bool
deriving DecidableEq, Repr, Inhabited

def Ingest.signal {α : Type} (ingest : Ingest α) : SyncSignal :=
  ⟨ingest.synced, ingest.hasEnded⟩

/-- Waits for caches to sync, one after the other: true once all have, false if one has ended
without, or on shutdown while one has not; none as long as there is something to wait for. -/
def awaitSync (shutdown : Bool) : List SyncSignal → Option Bool
  | [] => some true
  | signal :: rest =>
      if signal.synced then awaitSync shutdown rest
      else if signal.ended || shutdown then some false
      else none

end ReconcileLoop

import ReconcileLoop.Error
import ReconcileLoop.Metrics
import ReconcileLoop.Watch.Channel
import ReconcileLoop.Watch.Delta

namespace ReconcileLoop

/-! # From a watch to a cache

A pump reads the stream of a watch and sends its deltas, in order, into the channel of a cache.
Errors of the stream are counted and passed over; the stream itself sees to it that the watch goes
on. A pump stops on shutdown, when the stream ends, and when nobody receives any more.
-/

/-- What a stream has to offer when it is asked. -/
inductive StreamItem (α : Type) where
  | delta (delta : Delta α)
  | failed (error : StoreError)
  | ended
  /-- Nothing for now. -/
  | pending
deriving Inhabited

/-- A stream that is known in advance: its items, after which it ends or falls silent. -/
structure Script (α : Type) where
  items : List (Except StoreError (Delta α))
  ends : Bool

namespace Script

def next {α : Type} (script : Script α) : StreamItem α × Script α :=
  match script.items with
  | .ok delta :: rest => (.delta delta, { script with items := rest })
  | .error error :: rest => (.failed error, { script with items := rest })
  | [] => (if script.ends then .ended else .pending, script)

end Script

inductive PumpStage (α : Type) where
  | reading
  /-- Waits for room in the channel. -/
  | sending (delta : Delta α)
  | finished
deriving DecidableEq, Repr, Inhabited

structure Pump (α σ : Type) where
  stream : σ
  stage : PumpStage α := .reading
  /-- How many errors were passed over. -/
  errors : Nat := 0

namespace Pump

variable {α σ : Type}

def isFinished (pump : Pump α σ) : Bool :=
  match pump.stage with
  | .finished => true
  | _ => false

/-- The next step of a pump; none if it has to wait or has finished. -/
def step? (next : σ → StreamItem α × σ) (shutdown : Bool) (channel : Channel (Delta α))
    (pump : Pump α σ) : Option (Pump α σ × Channel (Delta α)) :=
  match pump.stage with
  | .finished => none
  | .sending delta =>
      if ¬channel.receiving then some ({ pump with stage := .finished }, channel)
      else if channel.hasRoom then some ({ pump with stage := .reading }, channel.push delta)
      else none
  | .reading =>
      if shutdown then some ({ pump with stage := .finished }, channel)
      else
        match next pump.stream with
        | (.delta delta, stream) => some ({ pump with stream, stage := .sending delta }, channel)
        | (.failed _, stream) => some ({ pump with stream, errors := pump.errors + 1 }, channel)
        | (.ended, stream) => some ({ pump with stream, stage := .finished }, channel)
        | (.pending, _) => none

def run (next : σ → StreamItem α × σ) (shutdown : Bool) (channel : Channel (Delta α))
    (pump : Pump α σ) : Nat → Pump α σ × Channel (Delta α)
  | 0 => (pump, channel)
  | fuel + 1 =>
      match pump.step? next shutdown channel with
      | some (pump, channel) => run next shutdown channel pump fuel
      | none => (pump, channel)

/-- The steps that suffice to read a script to its end. -/
def scriptSteps (pump : Pump α (Script α)) : Nat := 2 * pump.stream.items.length + 3

/-- The counter of the errors on the watch of a kind, which exists once there was one. -/
def metrics (kind : String) (pump : Pump α σ) : List (Series × Nat) :=
  if pump.errors = 0 then [] else [(⟨.watchErrors, [("kind", kind)]⟩, pump.errors)]

end Pump

end ReconcileLoop

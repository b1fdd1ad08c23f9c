import ReconcileLoop.Queue.Basic
import ReconcileLoop.Queue.Signal

namespace ReconcileLoop.Queue

/-! # Waiting for an item

A shared queue is a queue with a signal. A task that gets an item first joins the line of the
signal and only then looks into the queue, so an item that arrives after the look wakes it. `Getter`
is the state of such a task between two of its atomic steps, and `Getter.step?` makes the next one.
-/

/-- A queue and the signal that says when there is something to take. -/
structure Shared (κ : Type) where
  queue : Queue κ := {}
  signal : Signal := {}
deriving Repr, Inhabited

/-- Where a task stands that gets an item. A missing ticket stands for a permit that was used. -/
inductive Getter (κ : Type) where
  | fresh
  /-- In line, about to look into the queue. -/
  | joined (ticket? : Option Ticket)
  /-- Found nothing and waits to be called. -/
  | waiting (ticket? : Option Ticket)
  /-- Handed an item, or told that the queue is down. -/
  | finished (item? : Option κ)
deriving DecidableEq, Repr, Inhabited

variable {κ : Type} [DecidableEq κ]

namespace Shared

/-- Wakes a waiting task if an operation made an item ready. -/
def changed (shared : Shared κ) (after : Queue κ) : Shared κ :=
  { queue := after
    signal := if shared.queue.length < after.length then shared.signal.callOne else shared.signal }

def add (shared : Shared κ) (item : κ) : Shared κ := shared.changed (shared.queue.add item)

def done (shared : Shared κ) (item : κ) : Shared κ := shared.changed (shared.queue.done item)

/-- Shuts the queue down and wakes every waiting task. -/
def shutDown (shared : Shared κ) : Shared κ :=
  if shared.queue.down then shared
  else { queue := shared.queue.shutDown, signal := shared.signal.callAll }

/-- Gives back the ticket of a task that no longer waits. -/
def leave (shared : Shared κ) : Option Ticket → Shared κ
  | some ticket => { shared with signal := shared.signal.leave ticket }
  | none => shared

end Shared

namespace Getter

/-- The next atomic step of a task, none while it waits uncalled or after it has finished. -/
def step? (shared : Shared κ) : Getter κ → Option (Shared κ × Getter κ)
  | fresh =>
      let (ticket?, signal) := shared.signal.join
      some ({ shared with signal }, joined ticket?)
  | joined ticket? =>
      if shared.queue.down then some (shared.leave ticket?, finished none)
      else
        match shared.queue.take? with
        | some (item, queue) => some ({ shared with queue }.leave ticket?, finished (some item))
        | none => some (shared, waiting ticket?)
  | waiting none => some (shared, fresh)
  | waiting (some ticket) =>
      if shared.signal.isCalled ticket then
        some ({ shared with signal := shared.signal.answer ticket }, fresh)
      else none
  | finished _ => none

/-- How many steps a task makes at most before it waits uncalled or has finished, if nobody else
moves: it takes note of a call, uses up a permit, and then has to join the line. -/
def stepsToRest : Nat := 6

def run (shared : Shared κ) (getter : Getter κ) : Nat → Shared κ × Getter κ
  | 0 => (shared, getter)
  | fuel + 1 =>
      match getter.step? shared with
      | some (shared, getter) => run shared getter fuel
      | none => (shared, getter)

def ticket? : Getter κ → Option Ticket
  | joined ticket? => ticket?
  | waiting ticket? => ticket?
  | _ => none

end Getter

/-- Gets an item without waiting: none if the task would have to wait. -/
def Shared.poll (shared : Shared κ) : Shared κ × Option (Option κ) :=
  match Getter.fresh.run shared Getter.stepsToRest with
  | (shared, .finished item?) => (shared, some item?)
  | (shared, getter) => (shared.leave getter.ticket?, none)

/-- Runs several tasks, one after the other, until each of them waits or has finished. None of them
wakes another: a ticket given back by a task that ran alone was not called. -/
def Shared.settle (shared : Shared κ) : List (Getter κ) → Shared κ × List (Getter κ)
  | [] => (shared, [])
  | getter :: rest =>
      let (shared, getter) := getter.run shared Getter.stepsToRest
      let (shared, rest) := shared.settle rest
      (shared, getter :: rest)

end ReconcileLoop.Queue

import ReconcileLoop.Limiter.Backoff
import ReconcileLoop.Limiter.Bucket

namespace ReconcileLoop

/-! # Limiters

A limiter decides how long an item waits before it is tried again. It is built from exponential
backoffs and token buckets; several of them together ask for the longest of their delays.
-/

inductive Limiter (κ : Type) where
  | exponential (backoff : Limiter.Backoff κ)
  | bucket (bucket : Limiter.Bucket)
  /-- The longest delay of several limiters, none if there are none. -/
  | longest (limiters : List (Limiter κ))

namespace Limiter

variable {κ : Type} [DecidableEq κ]

def defaultBase : Nat := Duration.ofMillis 5

def defaultLimit : Nat := Duration.ofSeconds 1000

def defaultRate : Float := 10.0

def defaultBurst : Nat := 100

/-- A backoff for each item under an overall bucket. -/
def combined (base limit : Nat) (rate : Float) (burst : Nat) (now : Nat) : Limiter κ :=
  longest [exponential { base, limit }, bucket (Bucket.full rate burst now)]

/-- The limiter that is used unless another one is chosen. -/
def standard (now : Nat) : Limiter κ :=
  combined defaultBase defaultLimit defaultRate defaultBurst now

mutual

/-- The delay before the item is tried again; counts one more failure of it. -/
def backOff (now : Nat) (item : κ) : Limiter κ → Nat × Limiter κ
  | exponential backoff =>
      let (delay, after) := backoff.backOff item
      (delay, exponential after)
  | bucket held =>
      let (delay, after) := held.take now
      (delay, bucket after)
  | longest limiters =>
      let (delay, after) := backOffAll now item limiters
      (delay, longest after)

def backOffAll (now : Nat) (item : κ) : List (Limiter κ) → Nat × List (Limiter κ)
  | [] => (0, [])
  | limiter :: rest =>
      let (delay, after) := backOff now item limiter
      let (others, afterwards) := backOffAll now item rest
      (max delay others, after :: afterwards)

end

mutual

def forget (item : κ) : Limiter κ → Limiter κ
  | exponential backoff => exponential (backoff.forget item)
  | bucket held => bucket held
  | longest limiters => longest (forgetAll item limiters)

def forgetAll (item : κ) : List (Limiter κ) → List (Limiter κ)
  | [] => []
  | limiter :: rest => forget item limiter :: forgetAll item rest

end

mutual

/-- The failures of an item that are counted and not forgotten; a bucket counts none. -/
def requeues (item : κ) : Limiter κ → Nat
  | exponential backoff => backoff.failures.count item
  | bucket _ => 0
  | longest limiters => requeuesAll item limiters

def requeuesAll (item : κ) : List (Limiter κ) → Nat
  | [] => 0
  | limiter :: rest => max (requeues item limiter) (requeuesAll item rest)

end

end Limiter

end ReconcileLoop

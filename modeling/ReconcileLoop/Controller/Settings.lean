import ReconcileLoop.Limiter.Tree

namespace ReconcileLoop

/-! # Settings

What can be chosen about a controller, with the values it has otherwise.
-/

structure Settings where
  /-- How many workers make passes; at least one does. -/
  workers : Nat := 5
  maxRetries : Nat := 10
  /-- The namespace to watch; all of them if there is none. -/
  space : Option String := none
  resync : Option Nat := none
  retryBase : Nat := Limiter.defaultBase
  retryLimit : Nat := Limiter.defaultLimit
  rate : Float := Limiter.defaultRate
  burst : Nat := Limiter.defaultBurst
  /-- How many deltas may wait between a watch and its cache. -/
  ingestCapacity : Nat := 2048

namespace Settings

/-- Backoff for each key under an overall budget. -/
def limiter {κ : Type} (settings : Settings) (now : Nat) : Limiter κ :=
  .combined settings.retryBase settings.retryLimit settings.rate settings.burst now

end Settings

end ReconcileLoop

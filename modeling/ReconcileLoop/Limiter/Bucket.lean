import ReconcileLoop.Duration

namespace ReconcileLoop.Limiter

/-! # Token bucket

One budget for all items: tokens flow in at a fixed rate up to a burst, each delay takes one, and
what is missing is waited for. Tokens are taken in advance, so requests beyond the burst spread out
at the rate.
-/

/-- A bucket. Without a rate it never delays. -/
structure Bucket where
  /-- Tokens for each second, a positive number. -/
  rate : Option Float
  burst : Float
  tokens : Float
  counted : Nat

namespace Bucket

/-- The longest that a bucket makes wait. -/
def longestWait : Nat := Duration.ofSeconds 1000

/-- A full bucket with room for at least one token; a rate that is not a positive finite number
counts as no limit. -/
def full (rate : Float) (burst : Nat) (now : Nat) : Bucket :=
  let room := (max burst 1).toUInt64.toFloat
  { rate := if rate.isFinite && 0.0 < rate then some rate else none
    burst := room, tokens := room, counted := now }

def isUnlimited (bucket : Bucket) : Bool := bucket.rate.isNone

/-- The time until tokens that are missing have come in. -/
def wait (missing rate : Float) : Nat :=
  match Duration.ofFloatSeconds? (missing / rate) with
  | some span => min span longestWait
  | none => longestWait

/-- The tokens of a bucket at an instant, before any of them is taken. -/
def refilled (bucket : Bucket) (now : Nat) (rate : Float) : Float :=
  let inflow := bucket.tokens + Duration.toSeconds (now - bucket.counted) * rate
  if inflow < bucket.burst then inflow else bucket.burst

/-- Takes a token and says how long to wait for it. -/
def take (bucket : Bucket) (now : Nat) : Nat × Bucket :=
  match bucket.rate with
  | none => (0, bucket)
  | some rate =>
      let left := bucket.refilled now rate - 1.0
      let after := { bucket with tokens := left, counted := now }
      if 0.0 ≤ left then (0, after) else (wait (-left) rate, after)

theorem wait_le (missing rate : Float) : wait missing rate ≤ longestWait := by
  unfold wait
  split
  · exact Nat.min_le_right _ _
  · exact Nat.le_refl _

theorem take_le (bucket : Bucket) (now : Nat) : (bucket.take now).1 ≤ longestWait := by
  unfold take
  split
  · exact Nat.zero_le _
  · simp only
    split
    · exact Nat.zero_le _
    · exact wait_le _ _

end Bucket

end ReconcileLoop.Limiter

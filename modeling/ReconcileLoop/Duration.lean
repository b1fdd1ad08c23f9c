namespace ReconcileLoop

/-! # Durations

Spans of time and instants are whole numbers of nanoseconds, an instant being the span since the
start. A number of seconds held as a double becomes the nearest such number, a half going to the
even neighbour.
-/

namespace Duration

def nanosPerSecond : Nat := 1000000000

def nanosPerMilli : Nat := 1000000

def ofSeconds (seconds : Nat) : Nat := nanosPerSecond * seconds

def ofMillis (millis : Nat) : Nat := nanosPerMilli * millis

def ofParts (seconds nanos : Nat) : Nat := nanosPerSecond * seconds + nanos

def seconds (span : Nat) : Nat := span / nanosPerSecond

def subsecNanos (span : Nat) : Nat := span % nanosPerSecond

/-- The first whole millisecond that is not before this instant. -/
def ceilMillis (span : Nat) : Nat := (span + (nanosPerMilli - 1)) / nanosPerMilli

/-- The seconds as a double: the whole ones plus the fraction, each rounded. -/
def toSeconds (span : Nat) : Float :=
  (seconds span).toUInt64.toFloat + (subsecNanos span).toUInt64.toFloat / 1000000000.0

theorem ceilMillis_lt (span : Nat) : ofMillis (ceilMillis span) < span + nanosPerMilli := by
  unfold ofMillis ceilMillis nanosPerMilli
  omega

end Duration

/-- The whole number nearest to a quotient; a half goes to the even neighbour. -/
def roundHalfEven (numerator denominator : Nat) : Nat :=
  let quotient := numerator / denominator
  let twice := 2 * (numerator % denominator)
  if twice < denominator then quotient
  else if denominator < twice then quotient + 1
  else if quotient % 2 = 0 then quotient else quotient + 1

/-- The nanoseconds nearest to a number of seconds; none unless the number is finite and not
negative. -/
def Duration.ofFloatSeconds? (x : Float) : Option Nat :=
  if x.isFinite ∧ 0.0 ≤ x then
    let bits := x.toBits.toNat
    let field := bits / Nat.pow 2 52 % Nat.pow 2 11
    let fraction := bits % Nat.pow 2 52
    -- the value is `mantissa * 2 ^ (scale - 1074)`
    let mantissa := if field = 0 then fraction else Nat.pow 2 52 + fraction
    let scale := field - 1
    some (roundHalfEven (mantissa * nanosPerSecond * Nat.pow 2 scale) (Nat.pow 2 1074))
  else none

end ReconcileLoop

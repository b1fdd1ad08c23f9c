import ReconcileLoop.Duration
import ReconcileLoop.Json.Fields
import ReconcileLoop.Key

namespace ReconcileLoop

/-! # Keys, durations and numbers as JSON

A key is written as the pair of its namespace, which may be `null`, and its name; a duration as the
pair of its seconds and the nanoseconds beside them.
-/

namespace Key

def toJson (key : Key) : Json := .arr [.orNull .str key.space?, .str key.name]

def ofJson? : Json → Option Key
  | .arr [.null, .str name] => some ⟨none, name⟩
  | .arr [.str space, .str name] => some ⟨some space, name⟩
  | _ => none

def sort (keys : List Key) : List Key := keys.mergeSort fun a b => (compare a b).isLE

end Key

namespace Duration

def toJson (span : Nat) : Json := .arr [.ofNat (seconds span), .ofNat (subsecNanos span)]

def ofJson? : Json → Option Nat
  | .arr [seconds, nanos] => return ofParts (← seconds.nat?) (← nanos.nat?)
  | _ => none

end Duration

namespace Json

def keyAt? (name : String) (value : Json) : Option Key := (value.getSome? name).bind Key.ofJson?

/-- A duration, with a value to assume if it is unset. -/
def durationAt? (name : String) (default : Nat) (value : Json) : Option Nat :=
  (value.optional? Duration.ofJson? name).map (·.getD default)

/-- A number as the nearest double. The numbers that JSON lacks are written as texts. -/
def float? : Json → Option Float
  | int n => some (Float.ofInt n)
  | dec mantissa exponent =>
      let size := Float.ofScientific mantissa.natAbs (decide (exponent < 0)) exponent.natAbs
      some (if mantissa < 0 then -size else size)
  | str "NaN" => some (0.0 / 0.0)
  | str "inf" => some (1.0 / 0.0)
  | str "-inf" => some (-1.0 / 0.0)
  | _ => none

/-- The number that a double is: a fraction with a power of two below is one with a power of ten. -/
def ofFloat (x : Float) : Json :=
  if x.isNaN then str "NaN"
  else if x.isInf then str (if 0.0 < x then "inf" else "-inf")
  else
    let (fraction, exponent) := x.frExp
    let mantissa := (fraction.scaleB 53).toInt64.toInt
    let shift := exponent - 53
    let places := shift.natAbs
    if 0 ≤ shift then int (mantissa * Nat.pow 2 places)
    else if mantissa % Nat.pow 2 places = 0 then int (mantissa / Nat.pow 2 places)
    else dec (mantissa * Nat.pow 5 places) shift

end Json

end ReconcileLoop

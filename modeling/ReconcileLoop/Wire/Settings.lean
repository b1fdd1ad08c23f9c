import ReconcileLoop.Controller.Settings
import ReconcileLoop.Ingress.Template
import ReconcileLoop.Json.Record
import ReconcileLoop.Wire.Basic

namespace ReconcileLoop

/-! # Limiters, settings and templates as JSON

What is unset in a value that is read has its default.
-/

namespace Settings

def ofJson? (value : Json) : Option Settings := do
  let default : Settings := {}
  let number (name : String) (other : Nat) : Nat := (value.natAt? name).getD other
  let resync ← value.optional? Duration.ofJson? "resync"
  let retryBase ← value.durationAt? "retry_base" default.retryBase
  let retryLimit ← value.durationAt? "retry_max" default.retryLimit
  let rate ← value.optional? Json.float? "qps"
  return {
    workers := number "workers" default.workers
    maxRetries := number "max_retries" default.maxRetries
    space := value.strAt? "namespace"
    resync, retryBase, retryLimit
    rate := rate.getD default.rate
    burst := number "burst" default.burst
    ingestCapacity := number "ingest_capacity" default.ingestCapacity }

def toJson (settings : Settings) : Json :=
  .ofMembers
    [("workers", .ofNat settings.workers), ("max_retries", .ofNat settings.maxRetries),
      ("namespace", .orNull .str settings.space),
      ("resync", .orNull Duration.toJson settings.resync),
      ("ingest_capacity", .ofNat settings.ingestCapacity),
      ("retry_base", Duration.toJson settings.retryBase),
      ("retry_max", Duration.toJson settings.retryLimit),
      ("qps", .ofFloat settings.rate), ("burst", .ofNat settings.burst)]

end Settings

namespace Limiter

/-- Reads a limiter in which limiters are nested at most so deep. -/
def ofJson? {κ : Type} (value : Json) : Nat → Option (Limiter κ)
  | 0 => none
  | depth + 1 => do
      match ← value.strAt? "type" with
      | "exponential" =>
          let base ← value.durationAt? "base" 0
          let limit ← value.durationAt? "max" 0
          some (exponential { base, limit })
      | "bucket" =>
          let rate ← (value.getSome? "qps").bind Json.float?
          some (bucket (.full rate (← value.natAt? "burst") 0))
      | "max" =>
          let limiters ← (← value.itemsAt? "of").mapM (ofJson? · depth)
          some (longest limiters)
      | "default" => some (standard 0)
      | "config" => (Settings.ofJson? value).map (·.limiter 0)
      | _ => none

def deepest : Nat := 1000

end Limiter

namespace IngressTemplate

def ofJson? (value : Json) : Option IngressTemplate := do
  let default : IngressTemplate := {}
  let text (name other : String) : String := (value.strAt? name).getD other
  let port ← value.optional? Json.int32? "port"
  return {
    annotation := text "annotation" default.annotation
    matcher := ((value.strAt? "exact").map AnnotationMatch.exact).getD default.matcher
    ingressClass := text "class" default.ingressClass
    host := text "host" default.host
    path := text "path" default.path
    port := port.getD default.port }

def toJson (template : IngressTemplate) : Json :=
  .ofMembers
    [("annotation", .str template.annotation),
      ("exact", match template.matcher with
        | .presence => .null
        | .exact value => .str value),
      ("class", .str template.ingressClass), ("host", .str template.host),
      ("path", .str template.path), ("port", .ofInt32 template.port)]

end IngressTemplate

end ReconcileLoop

import ReconcileLoop.CommandLine.Scan
import ReconcileLoop.Controller.Settings
import ReconcileLoop.Duration
import ReconcileLoop.Ingress.Template

namespace ReconcileLoop.CommandLine

/-! # Invocations

A command line names one command. The value of a setting is the one behind the command if there is
one there, else the one before it, else that of the environment, else the default.
-/

structure Invocation where
  command : Command
  choices : Choices := {}
deriving DecidableEq, Repr, Inhabited

namespace Invocation

/-- Reads a command line. Both levels consult the environment, so that a flag before the command
does not excuse an unreadable variable. -/
def parse (environment : List (String × String)) (arguments : List String) :
    Except Fault Invocation := do
  let (outer, command?) ← Level.outer.scan {} arguments
  match command? with
  | some (command, rest) =>
      let (inner, _) ← (Level.inner command).scan {} rest
      let behind ← inner.settle
      let assumed ← Choices.ofEnvironment environment behind
      let before ← outer.settle
      let _ ← Choices.ofEnvironment environment before
      return { command, choices := behind.orElse (before.orElse assumed) }
  | none =>
      let before ← outer.settle
      let assumed ← Choices.ofEnvironment environment before
      if before = {} ∧ assumed = {} then throw .nothingGiven else throw .missingCommand

/-- The settings of the controller. There is at least one worker and room for one delta, and a
resync each zero seconds is none. -/
def settings (invocation : Invocation) : Settings :=
  let default : Settings := {}
  let choices := invocation.choices
  let resync := choices.resyncSeconds.filter (0 < ·)
  { default with
    workers := max 1 (choices.workers.getD default.workers)
    maxRetries := choices.maxRetries.getD default.maxRetries
    space := choices.space
    resync := resync.map (Duration.ofParts · 0)
    ingestCapacity := max 1 (choices.queueCapacity.getD default.ingestCapacity) }

/-- The template for ingresses, or why there is none: an exact match needs a value. -/
def ingressTemplate (invocation : Invocation) : Except String IngressTemplate :=
  let default : IngressTemplate := {}
  let choices := invocation.choices
  let template (matcher : AnnotationMatch) : IngressTemplate :=
    { default with
      annotation := choices.mark.getD default.annotation
      matcher
      ingressClass := choices.ingressClass.getD default.ingressClass
      host := choices.host.getD default.host
      port := choices.port.getD default.port }
  match choices.matcher, choices.value with
  | some .exact, some value => .ok (template (.exact value))
  | some .exact, none => .error "--match exact requires --value"
  | _, _ => .ok (template .presence)

end Invocation

end ReconcileLoop.CommandLine

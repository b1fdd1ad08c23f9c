import ReconcileLoop.CommandLine.Flag

namespace ReconcileLoop.CommandLine

/-! # Chosen values

The values that flags and the environment give to settings. Numbers may have a sign; they have to
fit, and a text that is no number is refused.
-/

inductive Matcher where
  | presence
  | exact
deriving DecidableEq, Repr, Inhabited

structure Choices where
  space : Option String := none
  workers : Option Nat := none
  maxRetries : Option Nat := none
  resyncSeconds : Option Nat := none
  queueCapacity : Option Nat := none
  mark : Option String := none
  matcher : Option Matcher := none
  value : Option String := none
  host : Option String := none
  ingressClass : Option String := none
  port : Option Int32 := none
deriving DecidableEq, Repr, Inhabited

def digits? (text : List Char) : Option Nat :=
  if text ≠ [] ∧ text.all Char.isDigit then
    some (text.foldl (fun n c => n * 10 + (c.toNat - 48)) 0)
  else none

def natural? (bound : Nat) (text : String) : Option Nat :=
  let number? := match text.toList with
    | '+' :: rest => digits? rest
    | unsigned => digits? unsigned
  number?.filter (· < bound)

def integer? (least bound : Int) (text : String) : Option Int :=
  let number? := match text.toList with
    | '+' :: rest => (digits? rest).map Int.ofNat
    | '-' :: rest => (digits? rest).map fun size => -(size : Int)
    | unsigned => (digits? unsigned).map Int.ofNat
  number?.filter fun number => least ≤ number && number < bound

def Matcher.ofName? : String → Option Matcher
  | "presence" => some presence
  | "exact" => some exact
  | _ => none

namespace Choices

def has (choices : Choices) : Setting → Bool
  | .space => choices.space.isSome
  | .workers => choices.workers.isSome
  | .maxRetries => choices.maxRetries.isSome
  | .resyncSeconds => choices.resyncSeconds.isSome
  | .queueCapacity => choices.queueCapacity.isSome
  | .mark => choices.mark.isSome
  | .matcher => choices.matcher.isSome
  | .value => choices.value.isSome
  | .host => choices.host.isSome
  | .ingressClass => choices.ingressClass.isSome
  | .port => choices.port.isSome

def put (choices : Choices) (setting : Setting) (text : String) : Except Fault Choices :=
  let number {β : Type} (number? : Option β) (chosen : β → Choices) : Except Fault Choices :=
    match number? with
    | some number => .ok (chosen number)
    | none => .error (.unreadableValue setting text)
  match setting with
  | .space => .ok { choices with space := some text }
  | .workers => number (natural? UInt64.size text) fun n => { choices with workers := some n }
  | .maxRetries =>
      number (integer? 0 UInt32.size text) fun n => { choices with maxRetries := some n.toNat }
  | .resyncSeconds =>
      number (natural? UInt64.size text) fun n => { choices with resyncSeconds := some n }
  | .queueCapacity =>
      number (natural? UInt64.size text) fun n => { choices with queueCapacity := some n }
  | .mark => .ok { choices with mark := some text }
  | .matcher =>
      match Matcher.ofName? text with
      | some matcher => .ok { choices with matcher := some matcher }
      | none => .error (.unknownChoice setting text)
  | .value => .ok { choices with value := some text }
  | .host => .ok { choices with host := some text }
  | .ingressClass => .ok { choices with ingressClass := some text }
  | .port =>
      number (integer? Int32.minValue.toInt (Int32.maxValue.toInt + 1) text) fun n =>
        { choices with port := some (Int32.ofInt n) }

/-- Gives a setting its value on the command line, where it must not have one yet. -/
def putOnce (choices : Choices) (setting : Setting) (text : String) : Except Fault Choices :=
  if choices.has setting then .error (.repeated setting) else choices.put setting text

def orElse (first second : Choices) : Choices where
  space := first.space <|> second.space
  workers := first.workers <|> second.workers
  maxRetries := first.maxRetries <|> second.maxRetries
  resyncSeconds := first.resyncSeconds <|> second.resyncSeconds
  queueCapacity := first.queueCapacity <|> second.queueCapacity
  mark := first.mark <|> second.mark
  matcher := first.matcher <|> second.matcher
  value := first.value <|> second.value
  host := first.host <|> second.host
  ingressClass := first.ingressClass <|> second.ingressClass
  port := first.port <|> second.port

/-- The values that the environment gives to the general settings that have none. -/
def ofEnvironment (environment : List (String × String)) (given : Choices) :
    Except Fault Choices :=
  Setting.general.foldlM (fun choices setting =>
    match setting.environmentName?.bind (List.lookup · environment) with
    | some text => if given.has setting then .ok choices else choices.put setting text
    | none => .ok choices) {}

end Choices

end ReconcileLoop.CommandLine

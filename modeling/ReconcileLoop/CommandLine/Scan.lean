import ReconcileLoop.CommandLine.Choices

namespace ReconcileLoop.CommandLine

/-! # Scanning a command line

The arguments of one level are read from left to right, up to the word that names a command. A value
may be attached to its flag with an equals sign, or follow it as an argument of its own. In the
second case it is looked at only when the next flag comes, or at the end, so that an argument that
is not understood is reported before a value that is not.
-/

inductive Word where
  /-- The two dashes behind which there are no flags. -/
  | escape
  | long (name : String) (value? : Option String)
  /-- A dash and letters, of which the first one decides. -/
  | letters (first : Char)
  | plain
deriving DecidableEq, Repr, Inhabited

def Word.of (argument : String) : Word :=
  match argument.toList with
  | ['-', '-'] => escape
  | '-' :: '-' :: flag =>
      let name := String.ofList (flag.takeWhile (· ≠ '='))
      match flag.dropWhile (· ≠ '=') with
      | _ :: value => long name (some (String.ofList value))
      | [] => long name none
  | '-' :: first :: _ => letters first
  | _ => plain

structure Scan where
  choices : Choices := {}
  /-- The last flag, as long as its value is not looked at. -/
  pending? : Option (Setting × Option String) := none
deriving DecidableEq, Repr, Inhabited

namespace Scan

def awaiting? (scan : Scan) : Option Setting :=
  match scan.pending? with
  | some (setting, none) => some setting
  | _ => none

/-- Looks at the value of the last flag. -/
def settle (scan : Scan) : Except Fault Choices :=
  match scan.pending? with
  | none => .ok scan.choices
  | some (setting, none) => .error (.missingValue setting)
  | some (setting, some text) => scan.choices.putOnce setting text

end Scan

/-- What the command that gives help says about the words behind it. -/
def helpFor : List String → Fault
  | [] => .help
  | word :: rest =>
      if word = "help" ∨ (Command.ofName? word).isSome then
        match rest with
        | [] => .help
        | next :: _ => .unknownCommand next
      else .unknownCommand word

namespace Level

/-- A word that stands where a command may be named. -/
def misplaced (level : Level) (word : String) : Fault :=
  match level with
  | outer => .unknownCommand word
  | inner _ => .unexpected word

/-- A word behind the two dashes, where no command can be named any more. -/
def escaped (level : Level) (word : String) : Fault :=
  if level = outer ∧ word ≠ "help" ∧ (Command.ofName? word).isNone then .unknownCommand word
  else .unexpected word

/-- Reads the arguments of a level, up to the command if there is one: it is returned with the
arguments behind it. -/
def scan (level : Level) (state : Scan) :
    List String → Except Fault (Scan × Option (Command × List String))
  | [] => .ok (state, none)
  | argument :: rest =>
      let named := level = outer && state.awaiting?.isNone
      if named && argument = "help" then .error (helpFor rest)
      else
        match if named then Command.ofName? argument else none with
        | some command => .ok (state, some (command, rest))
        | none =>
            match Word.of argument with
            | .escape =>
                match rest with
                | [] => .ok (state, none)
                | word :: _ => .error (level.escaped word)
            | .long name value? =>
                match level.flag? name, value? with
                | none, _ => .error (.unexpected argument)
                | some (.choose setting), some text => do
                    let choices ← (← state.settle).putOnce setting text
                    scan level { choices } rest
                | some (.choose setting), none => do
                    scan level { choices := ← state.settle, pending? := some (setting, none) } rest
                | some _, some _ => .error (.needlessValue argument)
                | some .help, none => state.settle >>= fun _ => .error .help
                | some .version, none => state.settle >>= fun _ => .error .version
            | .letters first =>
                match level.letterFlag? first with
                | some .help => state.settle >>= fun _ => .error .help
                | some .version => state.settle >>= fun _ => .error .version
                | _ => .error (.unexpected argument)
            | .plain =>
                match state.awaiting? with
                | some setting =>
                    scan level { state with pending? := some (setting, some argument) } rest
                | none => .error (level.misplaced argument)

end Level

end ReconcileLoop.CommandLine

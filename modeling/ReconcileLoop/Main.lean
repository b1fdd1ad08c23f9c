import ReconcileLoop.CommandLine.Program

/-! # The program

Takes the arguments and the variables of the environment, prints what a run says and ends with its
code.
-/

open ReconcileLoop.CommandLine

def main (arguments : List String) : IO UInt32 := do
  let mut environment := []
  for setting in Setting.general do
    if let some name := setting.environmentName? then
      if let some text ← IO.getEnv name then
        environment := environment ++ [(name, text)]
  let outcome := run environment arguments
  IO.print outcome.output
  if let some message := outcome.error? then
    IO.eprintln ("Error: " ++ message)
  return outcome.code.toUInt32

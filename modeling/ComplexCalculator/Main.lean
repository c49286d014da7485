import ComplexCalculator.CommandLine

open ComplexCalculator

/-- Reads the input only when the arguments ask for an evaluation. -/
def main (arguments : List String) : IO UInt32 := do
  let input ← match CommandLine.Options.ofArguments arguments with
    | .ok options =>
        if options.console then (← IO.getStdin).readBinToEnd else pure ByteArray.empty
    | .error _ => pure ByteArray.empty
  let outcome := CommandLine.run arguments input
  IO.print outcome.output
  unless outcome.error.isEmpty do
    IO.eprintln outcome.error
  return UInt32.ofNat outcome.exitCode

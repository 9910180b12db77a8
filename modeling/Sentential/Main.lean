import Sentential.CommandLine
import Sentential.Script
import Sentential.Service.Launch
import Sentential.Session

/-!
# The program

The outer layer: arguments and environment are handed to the command line, and what it answers is
written out.
-/
namespace Sentential

def environmentNames : List String :=
  ["PROPLOGIC_HOST", "PROPLOGIC_PORT", "PROPLOGIC_LOG_LEVEL", "PROPLOGIC_MAX_VARIABLES"]

def readEnvironment : IO Environment := do
  let mut env : Environment := []
  for name in environmentNames do
    if let some value ← IO.getEnv name then
      env := env ++ [(name, value)]
  return env

end Sentential

def main (arguments : List String) : IO UInt32 := do
  let env ← Sentential.readEnvironment
  match Sentential.CommandLine.run arguments env with
  | .ok outcome =>
    for line in outcome.log do
      IO.eprintln line
    if let some text := outcome.complaint then
      IO.eprintln text
    for text in outcome.output do
      IO.println text
    for settings in outcome.served do
      for text in (Sentential.Launch.ofSettings settings).output do
        IO.println text
    return outcome.code.toUInt32
  | .error (.settings e) =>
    IO.eprintln e.message
    return 1
  | .error (.evaluation (.malformed e)) =>
    IO.eprintln e.message
    return 1
  | .error (.evaluation (.unassigned name)) =>
    IO.eprintln (Sentential.Text.quote name.toString)
    return 1

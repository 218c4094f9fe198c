import DiagnosticWatch.Command.Run

/-!
# The program

The arguments say what to do. The first line of standard input describes the site as a JSON object.
Behind `start` every further line is a request, and one line of output is the response to it.
-/

namespace DiagnosticWatch

/-- Answers request lines until the daemon has ended or there are no more. -/
partial def Daemon.serve (d : Daemon) (input output : IO.FS.Stream) : IO Unit := do
  let line ← input.getLine
  if line.isEmpty then return
  let (response, d) := d.take (← IO.monoMsNow) (.line (some line) true)
  if let some r := response then
    output.putStr (messageLine r.toJson)
    output.flush
  if d.running then d.serve input output

end DiagnosticWatch

open DiagnosticWatch in
/-- Runs the command that the arguments ask for. -/
def main (args : List String) : IO UInt32 := do
  let input ← IO.getStdin
  let output ← IO.getStdout
  let errors ← IO.getStderr
  match Site.parse (← input.getLine) with
  | .error rejection =>
    errors.putStrLn rejection.message
    return 1
  | .ok site =>
    let (outcome, daemon) := CommandLine.run args site none (← IO.monoMsNow)
    output.putStr outcome.output
    output.flush
    errors.putStr outcome.errors
    if let some d := daemon then d.serve input output
    return outcome.code.toUInt32

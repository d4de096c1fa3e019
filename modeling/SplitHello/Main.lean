import SplitHello.Command.Run

/-!
# Main — the program

With `--report` as its first argument the program reports on a sample hello; otherwise it reads its
arguments as those of a connection.
-/

open SplitHello

/-- Print what a run prints, and end as it does. -/
def printRun (run : ProgramRun) : IO UInt32 := do
  run.stdout.forM IO.println
  run.stderr.forM IO.eprintln
  return if run.ok then 0 else 1

def main (arguments : List String) : IO UInt32 :=
  match arguments with
  | "--report" :: _ => printRun .report
  | arguments => printRun (.handshake arguments)

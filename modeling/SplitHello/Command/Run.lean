import SplitHello.Command.Options
import SplitHello.Command.Report

/-!
# Command/Run — what a program prints

A run of a program is what it prints and whether it ends well.
-/

namespace SplitHello

/-- What a program printed, and whether it ended well. -/
structure ProgramRun where
  /-- Whether the program ended well. -/
  ok : Bool
  /-- The lines on standard output. -/
  stdout : List String
  /-- The lines on standard error. -/
  stderr : List String
  deriving DecidableEq

namespace ProgramRun

/-- A run that reports on the sample hello. -/
def report : ProgramRun :=
  match ClientHello.parseRecords Report.sampleRecords with
  | .ok hello => ⟨true, Report.lines Report.sampleRecords hello, []⟩
  | .error e => ⟨true, [], ["Parse error: " ++ e.message]⟩

/-- A run that reads its arguments.  No connection is made after that. -/
def handshake (arguments : List String) : ProgramRun :=
  match Options.ofArguments arguments with
  | .ok none => ⟨true, Options.help, []⟩
  | .ok (some _) => ⟨false, [], ["Error: \"no connection can be made\""]⟩
  | .error e => ⟨false, [], ["Error: " ++ e.describe]⟩

end ProgramRun

end SplitHello

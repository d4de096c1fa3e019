import SplitHello.Command.HostName
import SplitHello.Journal.Note

/-!
# Command/Options — the command line

The arguments are read from left to right, and the first problem or a request for help ends the
reading.  An argument that is no option is the host; there can be one.
-/

namespace SplitHello

/-- What the arguments ask for. -/
structure Options where
  /-- The host to connect to. -/
  host : Option String
  /-- The port to connect to. -/
  port : Nat
  /-- How the hello is cut up. -/
  policy : Policy

/-- What is wrong with the arguments. -/
inductive OptionError where
  /-- An option has no value after it. -/
  | missingValue (value option : String)
  /-- A port is no number. -/
  | invalidPort (fault : Text.NumeralFault)
  /-- A range is none. -/
  | invalidRange (error : PolicyError)
  /-- There is a second argument that is no option. -/
  | unknownArgument (argument : String)
  /-- The host cannot have that name. -/
  | invalidHost

namespace OptionError

/-- What is wrong with a number. -/
def describeNumeral : Text.NumeralFault → String
  | .empty => "Empty"
  | .invalidDigit => "InvalidDigit"
  | .overflow => "PosOverflow"

/-- What is wrong with the arguments, in one line. -/
def describe : OptionError → String
  | missingValue value option => Text.quoted ("expected " ++ value ++ " after " ++ option)
  | invalidPort fault => "ParseIntError \x7b kind: " ++ describeNumeral fault ++ " \x7d"
  | invalidRange (.invalidRange min max) =>
      s!"InvalidRange \x7b min: {min.toNat}, max: {max.toNat} \x7d"
  | invalidRange (.malformed text) => "Malformed(" ++ Text.quoted text ++ ")"
  | unknownArgument argument => Text.quoted ("unknown argument: " ++ argument)
  | invalidHost => "InvalidDnsNameError"

end OptionError

namespace Options

/-- What is asked for without any argument. -/
def initial : Options := ⟨none, 443, .default⟩

/-- The help text. -/
def help : List String :=
  ["Usage: fragment_handshake [OPTIONS] HOST",
    "Options:",
    "  -p, --port PORT      Server port (default: 443)",
    "  --sni-size MIN-MAX   Fragment size from hostname on (default: 1-2)",
    "  --delay MIN-MAX      Pause after each fragment in ms (default: 10-20)",
    "  -h, --help           Show this help message"]

/-- The options with another port. -/
def setPort (options : Options) (text : String) : Except OptionError Options :=
  match Text.numeral UInt16.size text.toList with
  | .ok port => .ok { options with port }
  | .error fault => .error (.invalidPort fault)

/-- The options with other sizes for the host name and what comes after it. -/
def setSniSize (options : Options) (text : String) : Except OptionError Options :=
  match Interval.ofText text with
  | .ok sizes =>
      .ok { options with policy := { options.policy with sni := sizes, afterSni := sizes } }
  | .error e => .error (.invalidRange e)

/-- The options with other pauses. -/
def setDelay (options : Options) (text : String) : Except OptionError Options :=
  match Interval.ofText text with
  | .ok delayMs => .ok { options with policy := options.policy.withDelay delayMs }
  | .error e => .error (.invalidRange e)

/-- The options with a host. -/
def setHost (options : Options) (argument : String) : Except OptionError Options :=
  if options.host.isNone then .ok { options with host := some argument }
  else .error (.unknownArgument argument)

/-- The options that arguments add to others, or `none` where help is asked for. -/
def read (options : Options) : List String → Except OptionError (Option Options)
  | [] => .ok (some options)
  | argument :: later =>
      if argument = "-p" ∨ argument = "--port" then
        match later with
        | [] => .error (.missingValue "port" "--port")
        | value :: later => options.setPort value >>= fun options => read options later
      else if argument = "--sni-size" then
        match later with
        | [] => .error (.missingValue "range" "--sni-size")
        | value :: later => options.setSniSize value >>= fun options => read options later
      else if argument = "--delay" then
        match later with
        | [] => .error (.missingValue "range" "--delay")
        | value :: later => options.setDelay value >>= fun options => read options later
      else if argument = "-h" ∨ argument = "--help" then .ok none
      else options.setHost argument >>= fun options => read options later

/-- The options that arguments ask for, or `none` where help is asked for; a host has a valid
name. -/
def ofArguments (arguments : List String) : Except OptionError (Option Options) := do
  match ← initial.read arguments with
  | none => return none
  | some options =>
      if options.host.all HostName.isValid then return some options else throw .invalidHost

end Options

end SplitHello

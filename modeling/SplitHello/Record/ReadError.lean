import SplitHello.Failure
import SplitHello.Hello.ParseError

/-!
# Record/ReadError — why no client hello came off a byte source
-/

namespace SplitHello

/-- Why no record or client hello came off a byte source. -/
inductive ReadError where
  /-- The source ended or failed while at least `need` bytes were waited for. -/
  | truncatedStream (need : Nat) (source : Failure)
  /-- The bytes are not a TLS client hello. -/
  | notTls (error : ParseError)
  deriving DecidableEq

/-- An error in words. -/
def ReadError.message : ReadError → String
  | truncatedStream need _ => s!"stream ended before {need} bytes were available"
  | notTls error => "not a TLS packet: " ++ error.message

end SplitHello

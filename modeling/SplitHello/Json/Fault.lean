import SplitHello.Policy.Interval

/-!
# Json/Fault — what can be wrong with a document

A text may not be JSON, may end inside a document, or may be a document of the wrong shape.  Only a
wrong shape has words of its own.
-/

namespace SplitHello.Json

/-- What stands where something else was expected. -/
inductive Found where
  | null
  | boolean (value : Bool)
  | integer (value : Int)
  | float (shown : String)
  | string (value : String)
  | sequence
  | map
  deriving DecidableEq

/-- What stands there, in words. -/
def Found.describe : Found → String
  | null => "null"
  | boolean value => s!"boolean `{value}`"
  | integer value => s!"integer `{value}`"
  | float shown => "floating point `" ++ shown ++ "`"
  | string value => "string " ++ Text.quoted value
  | sequence => "sequence"
  | map => "map"

/-- What is wrong with a document. -/
inductive Fault where
  /-- The text is not JSON. -/
  | malformed
  /-- The text ends inside a document. -/
  | endsEarly
  /-- Something else was expected. -/
  | wrongType (found : Found) (expected : String)
  /-- A field occurs twice. -/
  | duplicateField (name : String)
  /-- A field does not occur. -/
  | missingField (name : String)
  /-- An array is too short. -/
  | wrongLength (length : Nat) (expected : String)
  /-- A text is not that of an interval. -/
  | invalidInterval (error : PolicyError)
  deriving DecidableEq

/-- A fault in words, if it has any. -/
def Fault.message : Fault → Option String
  | malformed | endsEarly => none
  | wrongType found expected =>
      some ("invalid type: " ++ found.describe ++ ", expected " ++ expected)
  | duplicateField name => some ("duplicate field `" ++ name ++ "`")
  | missingField name => some ("missing field `" ++ name ++ "`")
  | wrongLength length expected => some (s!"invalid length {length}, expected " ++ expected)
  | invalidInterval error => some error.message

end SplitHello.Json

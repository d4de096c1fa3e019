import SplitHello.Json.Number
import SplitHello.Json.Text

/-!
# Json/Value — values that are passed over, and values of a wrong type

A value under an unknown key only has to be JSON.  A value of a wrong type is looked at as far as it
takes to name it.
-/

namespace SplitHello.Json

/-! ## Values that are passed over -/

/-- What follows a value that starts with `c` and is neither a string nor a collection. -/
def skipScalar (c : Char) (text : List Char) : Except Fault (List Char) :=
  if c = 'n' then literal ['u', 'l', 'l'] text
  else if c = 't' then literal ['r', 'u', 'e'] text
  else if c = 'f' then literal ['a', 'l', 's', 'e'] text
  else if c = '-' then skipNumeral text
  else if c.isDigit then skipNumeral (c :: text)
  else .error .malformed

/-- What follows one of two characters that may come next, or the fault of there being another. -/
def expectOneOf (text : List Char) (close : Char) : Except Fault (Bool × List Char) :=
  match skipBlank text with
  | [] => .error .endsEarly
  | c :: text =>
      if c = close then .ok (true, text)
      else if c = ',' then .ok (false, text)
      else .error .malformed

/-- What follows a colon. -/
def colon (text : List Char) : Except Fault (List Char) :=
  match skipBlank text with
  | [] => .error .endsEarly
  | c :: text => if c = ':' then .ok text else .error .malformed

mutual

/-- What follows a value; `fuel` bounds how many values are passed over. -/
def skipValueWithin : (fuel : Nat) → List Char → Except Fault (List Char)
  | 0, _ => .error .endsEarly
  | fuel + 1, text =>
      match skipBlank text with
      | [] => .error .endsEarly
      | '"' :: text => skipString text
      | '[' :: text =>
          match skipBlank text with
          | ']' :: text => .ok text
          | text => if text.isEmpty then .error .endsEarly else skipItems fuel text
      | '{' :: text =>
          match skipBlank text with
          | '}' :: text => .ok text
          | text => skipMembers fuel text
      | c :: text => skipScalar c text

/-- What follows the items of an array, at least one, and its bracket. -/
def skipItems : (fuel : Nat) → List Char → Except Fault (List Char)
  | 0, _ => .error .endsEarly
  | fuel + 1, text => do
      let text ← skipValueWithin fuel text
      let (closed, text) ← expectOneOf text ']'
      if closed then return text else skipItems fuel text

/-- What follows the members of an object, at least one, and its brace. -/
def skipMembers : (fuel : Nat) → List Char → Except Fault (List Char)
  | 0, _ => .error .endsEarly
  | fuel + 1, text =>
      match skipBlank text with
      | [] => .error .endsEarly
      | '"' :: text => do
          let text ← skipString text
          let text ← colon text
          let text ← skipValueWithin fuel text
          let (closed, text) ← expectOneOf text '}'
          if closed then return text else skipMembers fuel text
      | _ => .error .malformed

end

/-- What follows a value. -/
def skipValue (text : List Char) : Except Fault (List Char) :=
  skipValueWithin (2 * text.length + 2) text

/-! ## Values of a wrong type -/

/-- The fault of a value that starts with `c` and is not what was expected. -/
def wrongType (expected : String) (c : Char) (text : List Char) : Fault :=
  let found : Except Fault Found :=
    if c = 'n' then (literal ['u', 'l', 'l'] text).map fun _ => .null
    else if c = 't' then (literal ['r', 'u', 'e'] text).map fun _ => .boolean true
    else if c = 'f' then (literal ['a', 'l', 's', 'e'] text).map fun _ => .boolean false
    else if c = '-' then numeral true text >>= fun (n, _) => n.found
    else if c.isDigit then numeral false (c :: text) >>= fun (n, _) => n.found
    else if c = '"' then (string text).map fun (value, _) => .string value
    else if c = '[' then .ok .sequence
    else if c = '{' then .ok .map
    else .error .malformed
  match found with
  | .ok found => .wrongType found expected
  | .error fault => fault

end SplitHello.Json

import SplitHello.Json.Value
import SplitHello.Policy.Basic

/-!
# Policy/Document — intervals and policies as JSON documents

An interval is a string that holds its text.  A policy is an object with four such strings under
their names, in any order and among other members, or an array of the four in their own order.  A
document is read from its start, and the first problem is the one reported: a later one, even that
the text is not JSON at all, is not reached.
-/

namespace SplitHello

open Json (Fault)

/-! ## Intervals -/

namespace Interval

/-- The document of an interval. -/
def toJson (iv : Interval) : String := "\"" ++ iv.text ++ "\""

/-- The interval at the start of a document. -/
def takeJson (text : List Char) : Except Fault (Interval × List Char) :=
  match Json.skipBlank text with
  | [] => .error .endsEarly
  | '"' :: text => do
      let (value, text) ← Json.string text
      match ofText value with
      | .ok iv => return (iv, text)
      | .error e => throw (.invalidInterval e)
  | c :: text => .error (Json.wrongType "a string" c text)

end Interval

/-- What a reader found, if nothing but blanks follows. -/
def wholeDocument {α : Type} (read : Except Fault (α × List Char)) : Except Fault α := do
  let (value, text) ← read
  if (Json.skipBlank text).isEmpty then return value else throw .malformed

/-- The interval that a document denotes. -/
def Interval.ofJson (document : String) : Except Fault Interval :=
  wholeDocument (takeJson document.toList)

/-! ## Policies -/

/-- The fields of a policy. -/
inductive PolicyField where
  | beforeSni
  | sni
  | afterSni
  | delayMs
  deriving DecidableEq

namespace PolicyField

/-- The fields in their own order. -/
def all : List PolicyField := [beforeSni, sni, afterSni, delayMs]

/-- The name of a field in a document. -/
def name : PolicyField → String
  | beforeSni => "before_sni"
  | sni => "sni"
  | afterSni => "after_sni"
  | delayMs => "delay_ms"

/-- The field with a name. -/
def ofName? (name : String) : Option PolicyField := all.find? (·.name = name)

@[simp] theorem ofName?_name (field : PolicyField) : ofName? field.name = some field := by
  cases field <;> decide +kernel

end PolicyField

namespace Policy

/-- What the policy is called in messages. -/
def documentName : String := "struct FragmentationPolicy"

/-- A field of a policy. -/
def get (policy : Policy) : PolicyField → Interval
  | .beforeSni => policy.beforeSni
  | .sni => policy.sni
  | .afterSni => policy.afterSni
  | .delayMs => policy.delayMs

/-- A member of an object: a name, a colon and an interval's document. -/
def member (policy : Policy) (field : PolicyField) : String :=
  "\"" ++ field.name ++ "\":" ++ (policy.get field).toJson

/-- The document of a policy, with its fields in their own order. -/
def toJson (policy : Policy) : String :=
  "\x7b" ++ ",".intercalate (PolicyField.all.map policy.member) ++ "\x7d"

/-- The fields found so far. -/
abbrev Partial := PolicyField → Option Interval

/-- The fields with one more. -/
def Partial.put (fields : Partial) (field : PolicyField) (iv : Interval) : Partial :=
  fun other => if other = field then some iv else fields other

/-- A field that has to be there. -/
def Partial.require (fields : Partial) (field : PolicyField) : Except Fault Interval :=
  match fields field with
  | some iv => .ok iv
  | none => .error (.missingField field.name)

/-- The policy with all fields found; the first that is missing is the fault. -/
def ofPartial (fields : Partial) : Except Fault Policy := do
  let beforeSni ← fields.require .beforeSni
  let sni ← fields.require .sni
  let afterSni ← fields.require .afterSni
  let delayMs ← fields.require .delayMs
  return { beforeSni, sni, afterSni, delayMs }

/-- The value of a member, whose key is behind. -/
def takeMember (fields : Partial) (key : String) (text : List Char) :
    Except Fault (Partial × List Char) :=
  match PolicyField.ofName? key with
  | none => do
      let text ← Json.colon text
      let text ← Json.skipValue text
      return (fields, text)
  | some field =>
      if (fields field).isSome then .error (.duplicateField field.name)
      else do
        let text ← Json.colon text
        let (iv, text) ← Interval.takeJson text
        return (fields.put field iv, text)

/-- The members of an object from a key on, and its brace; `fuel` bounds their number. -/
def takeMembers : (fuel : Nat) → Partial → List Char → Except Fault (Partial × List Char)
  | 0, _, _ => .error .endsEarly
  | fuel + 1, fields, text =>
      match Json.skipBlank text with
      | [] => .error .endsEarly
      | '"' :: text => do
          let (key, text) ← Json.string text
          let (fields, text) ← takeMember fields key text
          let (closed, text) ← Json.expectOneOf text '}'
          if closed then return (fields, text) else takeMembers fuel fields text
      | _ => .error .malformed

/-- The members of an object, whose opening brace is behind. -/
def takeObject (text : List Char) : Except Fault (Partial × List Char) :=
  match Json.skipBlank text with
  | '}' :: text => .ok (fun _ => none, text)
  | text => takeMembers (text.length + 1) (fun _ => none) text

/-- What an array of four is called in messages. -/
def arrayName : String := documentName ++ " with 4 elements"

/-- Where the `index`-th item of an array starts; that there is none is a fault. -/
def itemStart (index : Nat) (text : List Char) : Except Fault (List Char) :=
  match Json.skipBlank text with
  | [] => .error .endsEarly
  | ']' :: _ => .error (.wrongLength index arrayName)
  | c :: text =>
      if index = 0 then .ok (c :: text)
      else if c = ',' ∧ (Json.skipBlank text).head? ≠ some ']' then .ok text
      else .error .malformed

/-- The items of an array for the fields that are still to come, the `index`-th of them next. -/
def takeItems (index : Nat) (fields : Partial) (text : List Char) :
    List PolicyField → Except Fault (Partial × List Char)
  | [] =>
      match Json.skipBlank text with
      | [] => .error .endsEarly
      | ']' :: text => .ok (fields, text)
      | _ => .error .malformed
  | field :: later => do
      let text ← itemStart index text
      let (iv, text) ← Interval.takeJson text
      takeItems (index + 1) (fields.put field iv) text later

/-- The policy at the start of a document. -/
def takeJson (text : List Char) : Except Fault (Policy × List Char) :=
  let finish (found : Partial × List Char) : Except Fault (Policy × List Char) :=
    (ofPartial found.1).map fun policy => (policy, found.2)
  match Json.skipBlank text with
  | [] => .error .endsEarly
  | '{' :: text => takeObject text >>= finish
  | '[' :: text => takeItems 0 (fun _ => none) text PolicyField.all >>= finish
  | c :: text => .error (Json.wrongType documentName c text)

/-- The policy that a document denotes. -/
def ofJson (document : String) : Except Fault Policy :=
  wholeDocument (takeJson document.toList)

end Policy

end SplitHello

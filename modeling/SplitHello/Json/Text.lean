import SplitHello.Json.Fault

/-!
# Json/Text — blanks, words and strings of a document

Every reader takes the characters from where it stands and gives back those after what it read.  A
string's characters are read by one loop, `characters`: `string` keeps them and pairs up surrogates,
`skipString` only looks at their form.
-/

namespace SplitHello.Json

/-- Whether a character may stand between the parts of a document. -/
def isBlank (c : Char) : Bool := c = ' ' || c = '\n' || c = '\t' || c = '\r'

/-- What follows the blanks. -/
def skipBlank (text : List Char) : List Char := text.dropWhile isBlank

/-- What follows a word. -/
def literal : (word text : List Char) → Except Fault (List Char)
  | [], text => .ok text
  | _ :: _, [] => .error .endsEarly
  | c :: word, d :: text => if c = d then literal word text else .error .malformed

/-! ## Characters of a string -/

/-- The value of a hexadecimal digit. -/
def hexDigit (c : Char) : Option Nat :=
  if c.isDigit then some (c.toNat - '0'.toNat)
  else if 'a' ≤ c ∧ c ≤ 'f' then some (c.toNat - 'a'.toNat + 10)
  else if 'A' ≤ c ∧ c ≤ 'F' then some (c.toNat - 'A'.toNat + 10)
  else none

/-- The code unit that four hexadecimal digits denote.  Text that takes less than four bytes is too
short to tell. -/
def codeUnit : List Char → Except Fault (Nat × List Char)
  | a :: b :: c :: d :: text =>
      match hexDigit a, hexDigit b, hexDigit c, hexDigit d with
      | some a, some b, some c, some d => .ok (((a * 16 + b) * 16 + c) * 16 + d, text)
      | _, _, _, _ => .error .malformed
  | text =>
      if text.foldl (· + ·.utf8Size) 0 < 4 then .error .endsEarly else .error .malformed

/-- The second half of a surrogate pair that begins with `high`. -/
def lowSurrogate (high : Nat) : List Char → Except Fault (Char × List Char)
  | '\\' :: 'u' :: text => do
      let (low, text) ← codeUnit text
      if 0xdc00 ≤ low ∧ low ≤ 0xdfff then
        return (Char.ofNat (0x10000 + (high - 0xd800) * 0x400 + (low - 0xdc00)), text)
      else throw .malformed
  | [] | ['\\'] => .error .endsEarly
  | _ => .error .malformed

/-- The character that one code unit denotes, or two that are a surrogate pair. -/
def codePoint (text : List Char) : Except Fault (Char × List Char) := do
  let (n, text) ← codeUnit text
  if n < 0xd800 ∨ 0xdfff < n then return (Char.ofNat n, text)
  else if n ≤ 0xdbff then lowSurrogate n text
  else throw .malformed

/-- The character that an escape with one letter denotes. -/
def simpleEscape (c : Char) : Option Char :=
  if c = '"' ∨ c = '\\' ∨ c = '/' then some c
  else if c = 'b' then some '\x08'
  else if c = 'f' then some '\x0c'
  else if c = 'n' then some '\n'
  else if c = 'r' then some '\r'
  else if c = 't' then some '\t'
  else none

/-- The next character of a string, or `none` at its closing quote.  An escape by code unit is read
by `unit`. -/
def character {α : Type} (unit : List Char → Except Fault (α × List Char)) (plain : Char → α) :
    List Char → Except Fault (Option α × List Char)
  | [] => .error .endsEarly
  | '"' :: text => .ok (none, text)
  | '\\' :: 'u' :: text => (unit text).map fun (a, text) => (some a, text)
  | ['\\'] => .error .endsEarly
  | '\\' :: c :: text =>
      match simpleEscape c with
      | some d => .ok (some (plain d), text)
      | none => .error .malformed
  | c :: text => if c.toNat < 0x20 then .error .malformed else .ok (some (plain c), text)

/-- The characters of a string up to its closing quote; `fuel` bounds their number. -/
def characters {α : Type} (unit : List Char → Except Fault (α × List Char)) (plain : Char → α) :
    (fuel : Nat) → List Char → Except Fault (List α × List Char)
  | 0, _ => .error .endsEarly
  | fuel + 1, text => do
      let (c, text) ← character unit plain text
      match c with
      | none => return ([], text)
      | some c =>
          let (more, text) ← characters unit plain fuel text
          return (c :: more, text)

/-- The string whose opening quote is behind. -/
def string (text : List Char) : Except Fault (String × List Char) :=
  (characters codePoint id (text.length + 1) text).map fun (cs, text) => (String.ofList cs, text)

/-- What follows a string that nobody looks at; its code units need not pair up. -/
def skipString (text : List Char) : Except Fault (List Char) :=
  (characters codeUnit Char.toNat (text.length + 1) text).map (·.2)

end SplitHello.Json

import SplitHello.Cursor

/-!
# Hello/ServerName — the host name in a list of server names

The list starts with the count of its entries.  An entry is a type, a length and that many bytes;
type 0 is a host name.  The first host name is the answer, and nothing after it is looked at.
-/

namespace SplitHello.ServerName

/-- The type of an entry that is a host name. -/
def hostNameType : UInt8 := 0

/-- The next entry of a list: its type and its name. -/
def entry (c : Cursor) : Except ParseError ((UInt8 × Bytes) × Cursor) := do
  let (type, c) ← c.u8 "SNI name type"
  let (length, c) ← c.u16 "SNI name length"
  let (name, c) ← c.take length.toNat "SNI name"
  return ((type, name), c)

/-- The first host name among the next `count` entries. -/
def firstHostName : (count : Nat) → Cursor → Except ParseError (Option Bytes)
  | 0, _ => .ok none
  | count + 1, c => do
      let ((type, name), c) ← entry c
      if type = hostNameType then return some name else firstHostName count c

/-- The host name in the body of a server name extension. -/
def hostName (body : Bytes) : Except ParseError (Option Bytes) := do
  let (count, c) ← (Cursor.start body).u16 "SNI entry count"
  firstHostName count.toNat c

end SplitHello.ServerName

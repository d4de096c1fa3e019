/-!
# Command/HostName — names of hosts in the domain name system

A name is a row of labels with points between them, and maybe one at its end.  A label has letters,
digits, underscores and, not at its ends, hyphens; the last one may not have digits alone.
-/

namespace SplitHello.HostName

/-- The greatest number of bytes of a name. -/
def maxLength : Nat := 253

/-- The greatest number of characters of a label. -/
def maxLabelLength : Nat := 63

/-- Whether a character may stand anywhere in a label. -/
def isLabelChar (c : Char) : Bool := c.isAlphanum || c = '_'

/-- Whether a text is a label. -/
def isLabel (label : List Char) : Bool :=
  !label.isEmpty && label.length ≤ maxLabelLength &&
    label.all (fun c => isLabelChar c || c = '-') &&
    label.head? ≠ some '-' && label.getLast? ≠ some '-'

/-- The labels of a name, without what is after a point at its end. -/
def labels (name : String) : List (List Char) :=
  let parts := (name.splitOn ".").map String.toList
  if parts.length ≠ 1 ∧ parts.getLast? = some [] then parts.dropLast else parts

/-- Whether a text is the name of a host. -/
def isValid (name : String) : Bool :=
  name.utf8ByteSize ≤ maxLength && (labels name).all isLabel &&
    ((labels name).getLast?.getD []).any (fun c => !c.isDigit)

end SplitHello.HostName

/-!
# Hello/ExtensionType — the extensions that are decoded, and what can be wrong with them

Six extension types are recognised by their code; an entry of any other type is skipped.  A
recognised entry with a body that does not have the form of its type has an `ExtensionFault`.

* `ofCode?_eq_some_iff` — the codes and the types determine each other.
-/

namespace SplitHello

/-- The extensions of a client hello that are decoded. -/
inductive ExtensionType where
  /-- The name of the server that the client wants to reach. -/
  | serverName
  /-- A request for the certificate's status. -/
  | statusRequest
  /-- The elliptic curves, or named groups, that the client supports. -/
  | supportedCurves
  /-- The point formats that the client supports. -/
  | supportedPoints
  /-- A ticket of an earlier session, or an offer to take one. -/
  | sessionTicket
  /-- An offer to negotiate the next protocol. -/
  | nextProtoNeg
  deriving DecidableEq

namespace ExtensionType

/-- The code of a type on the wire. -/
def code : ExtensionType → UInt16
  | serverName => 0
  | statusRequest => 5
  | supportedCurves => 10
  | supportedPoints => 11
  | sessionTicket => 35
  | nextProtoNeg => 13172

/-- The type with a code, if it is one of the six. -/
def ofCode? (code : UInt16) : Option ExtensionType :=
  if code = 0 then some serverName
  else if code = 5 then some statusRequest
  else if code = 10 then some supportedCurves
  else if code = 11 then some supportedPoints
  else if code = 35 then some sessionTicket
  else if code = 13172 then some nextProtoNeg
  else none

/-- The name of a type in reports. -/
def name : ExtensionType → String
  | serverName => "ServerName"
  | statusRequest => "StatusRequest"
  | supportedCurves => "SupportedCurves"
  | supportedPoints => "SupportedPoints"
  | sessionTicket => "SessionTicket"
  | nextProtoNeg => "NextProtoNeg"

@[simp] theorem ofCode?_code (type : ExtensionType) : ofCode? type.code = some type := by
  cases type <;> rfl

/-- **The codes and the types determine each other.** -/
theorem ofCode?_eq_some_iff {code : UInt16} {type : ExtensionType} :
    ofCode? code = some type ↔ code = type.code := by
  refine ⟨fun h => ?_, fun h => h ▸ ofCode?_code type⟩
  unfold ofCode? at h
  repeat' split at h
  all_goals first
    | (cases h; assumption)
    | cases h

end ExtensionType

/-- What can be wrong with the body of a recognised extension. -/
inductive ExtensionFault where
  /-- The list of server names ends inside an entry, or before the announced count of them. -/
  | truncatedServerNames
  /-- A status request has no byte that says which status. -/
  | emptyStatusRequest
  /-- The curve list has no length. -/
  | missingCurvesLength
  /-- The curve list's length is odd, or is not that of the list. -/
  | curvesLengthMismatch
  /-- The point format list has no length. -/
  | missingPointsLength
  /-- The point format list's length is not that of the list. -/
  | pointsLengthMismatch
  /-- The offer to negotiate the next protocol has a body. -/
  | nextProtoNegNotEmpty
  deriving DecidableEq

namespace ExtensionFault

/-- The type of the extensions that can have a fault. -/
def type : ExtensionFault → ExtensionType
  | truncatedServerNames => .serverName
  | emptyStatusRequest => .statusRequest
  | missingCurvesLength | curvesLengthMismatch => .supportedCurves
  | missingPointsLength | pointsLengthMismatch => .supportedPoints
  | nextProtoNegNotEmpty => .nextProtoNeg

/-- A fault in words. -/
def reason : ExtensionFault → String
  | truncatedServerNames => "truncated server name list"
  | emptyStatusRequest => "empty status request"
  | missingCurvesLength => "missing curve list length"
  | curvesLengthMismatch => "curve list length mismatch"
  | missingPointsLength => "missing point format list length"
  | pointsLengthMismatch => "point format list length mismatch"
  | nextProtoNegNotEmpty => "next protocol negotiation must be empty"

end ExtensionFault

end SplitHello

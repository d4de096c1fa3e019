import SplitHello.Hello.Basic
import SplitHello.Hello.ServerName

/-!
# Hello/Extension — what the extensions of a hello say

An `Extension` is an entry as it stands in the message, a code and a body.  The body of a
recognised entry is decoded into an `ExtensionValue`, and a hello takes the value in (`set`).  An
unknown entry changes nothing; a faulty one is an error, and the hello stays as it was.
-/

namespace SplitHello

/-- An entry of the extension block. -/
structure Extension where
  /-- The code of the extension's type. -/
  code : UInt16
  /-- What the entry holds. -/
  body : Bytes
  deriving DecidableEq

/-- What a recognised extension says. -/
inductive ExtensionValue where
  /-- The first host name, if the list has one. -/
  | serverName (name : Option Bytes)
  /-- Whether the status asked for is OCSP. -/
  | statusRequest (ocsp : Bool)
  /-- The supported curves. -/
  | supportedCurves (curves : List UInt16)
  /-- The supported point formats. -/
  | supportedPoints (points : Bytes)
  /-- The session ticket. -/
  | sessionTicket (ticket : Bytes)
  /-- Next protocol negotiation is offered. -/
  | nextProtoNeg
  deriving DecidableEq

/-- The type of the extensions that say something. -/
def ExtensionValue.type : ExtensionValue → ExtensionType
  | serverName _ => .serverName
  | statusRequest _ => .statusRequest
  | supportedCurves _ => .supportedCurves
  | supportedPoints _ => .supportedPoints
  | sessionTicket _ => .sessionTicket
  | nextProtoNeg => .nextProtoNeg

namespace ExtensionType

/-- The kind of certificate status that is OCSP. -/
def ocspStatus : UInt8 := 1

/-- The curves in a body: a two-byte length, which is even and that of the rest, and the rest. -/
def decodeCurves (body : Bytes) : Except ExtensionFault (List UInt16) :=
  match body with
  | high :: low :: list =>
      let length := Bytes.toNat [high, low]
      if length % 2 ≠ 0 ∨ list.length ≠ length then .error .curvesLengthMismatch
      else .ok (Bytes.codes list)
  | _ => .error .missingCurvesLength

/-- What the body of an extension of a type says. -/
def decode : ExtensionType → Bytes → Except ExtensionFault ExtensionValue
  | serverName, body =>
      match ServerName.hostName body with
      | .ok name => .ok (.serverName name)
      | .error _ => .error .truncatedServerNames
  | statusRequest, [] => .error .emptyStatusRequest
  | statusRequest, status :: _ => .ok (.statusRequest (status == ocspStatus))
  | supportedCurves, body => (decodeCurves body).map .supportedCurves
  | supportedPoints, [] => .error .missingPointsLength
  | supportedPoints, length :: points =>
      if points.length ≠ length.toNat then .error .pointsLengthMismatch
      else .ok (.supportedPoints points)
  | sessionTicket, body => .ok (.sessionTicket body)
  | nextProtoNeg, body => if body.isEmpty then .ok .nextProtoNeg else .error .nextProtoNegNotEmpty

end ExtensionType

/-- What an entry says: nothing if its type is unknown. -/
def Extension.decode (x : Extension) : Except ExtensionFault (Option ExtensionValue) :=
  match ExtensionType.ofCode? x.code with
  | none => .ok none
  | some type => (type.decode x.body).map some

namespace ClientHello

/-- The hello with an extension's value taken in.  A status request other than OCSP takes nothing
back. -/
def set (hello : ClientHello) : ExtensionValue → ClientHello
  | .serverName name => { hello with sni := name }
  | .statusRequest ocsp => { hello with ocspStapling := hello.ocspStapling || ocsp }
  | .supportedCurves curves => { hello with supportedCurves := curves }
  | .supportedPoints points => { hello with supportedPoints := points }
  | .sessionTicket ticket => { hello with ticketSupported := true, sessionTicket := ticket }
  | .nextProtoNeg => { hello with nextProtoNeg := true }

/-- The hello with an entry taken in. -/
def apply (hello : ClientHello) (x : Extension) : Except ParseError ClientHello :=
  match x.decode with
  | .ok none => .ok hello
  | .ok (some value) => .ok (hello.set value)
  | .error fault => .error (.invalidExtension fault)

end ClientHello

end SplitHello

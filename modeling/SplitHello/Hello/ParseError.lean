import SplitHello.Hello.ExtensionType
import SplitHello.Text.Hex

/-!
# Hello/ParseError — why bytes are not a usable record or client hello

Each constructor is one cause, with the numbers that show it; `message` words it.
-/

namespace SplitHello

/-- Why bytes are not a usable record or client hello. -/
inductive ParseError where
  /-- At least `need` bytes are needed and `available` are there. -/
  | bufferTooShort (need available : Nat)
  /-- A record's content type is not that of a handshake. -/
  | notHandshakeRecord (contentType : UInt8)
  /-- The first byte is that of an SSLv2 record header. -/
  | sslv2Handshake
  /-- A record's version is too large for a real peer. -/
  | unsupportedRecordVersion (version : UInt16)
  /-- A handshake message is not a client hello. -/
  | notClientHello (messageType : UInt8)
  /-- The message ends inside a field. -/
  | truncated (field : String)
  /-- A session ID is longer than 32 bytes. -/
  | sessionIdTooLong (length : Nat)
  /-- The byte length of a list of two-byte cipher suites is odd. -/
  | oddCipherSuitesLength (length : Nat)
  /-- The extension block announces `declared` bytes and `actual` follow. -/
  | extensionsLengthMismatch (declared actual : Nat)
  /-- A recognised extension has a faulty body. -/
  | invalidExtension (fault : ExtensionFault)
  deriving DecidableEq

/-- An error in words. -/
def ParseError.message : ParseError → String
  | bufferTooShort need available => s!"buffer too short: need {need} bytes, have {available}"
  | notHandshakeRecord contentType =>
      "unexpected content type: expected 0x16 (Handshake), got " ++ Text.hex 2 contentType.toNat
  | sslv2Handshake => "unsupported SSLv2 handshake received"
  | unsupportedRecordVersion version =>
      "implausible record version " ++ Text.hex 4 version.toNat
  | notClientHello messageType =>
      "unexpected handshake type: expected 0x01 (ClientHello), got " ++
        Text.hex 2 messageType.toNat
  | truncated field => "truncated " ++ field
  | sessionIdTooLong length => s!"session ID length {length} exceeds 32"
  | oddCipherSuitesLength length => s!"cipher suites length {length} is not a multiple of 2"
  | extensionsLengthMismatch declared actual =>
      s!"extensions length {declared} does not match remaining {actual} bytes"
  | invalidExtension fault =>
      "malformed extension " ++ Text.hex 4 fault.type.code.toNat ++ ": " ++ fault.reason

end SplitHello

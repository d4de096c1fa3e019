import SplitHello.Hello.Extension
import SplitHello.Hello.Parse

/-!
# Hello/Message — client hellos as they are written

A `HelloMessage` holds what the writer of a hello decides: the fields, and either no extension block
or one with entries in some order.  `encode` writes it.
-/

namespace SplitHello

/-- The bytes of an entry of the extension block. -/
def Extension.encode (x : Extension) : Bytes :=
  Bytes.ofNat 2 x.code.toNat ++ Bytes.ofNat 2 x.body.length ++ x.body

/-- A client hello to be written. -/
structure HelloMessage where
  /-- The legacy protocol version. -/
  version : UInt16
  /-- The client's random. -/
  random : ClientRandom
  /-- The session ID. -/
  sessionId : Bytes
  /-- The offered cipher suites. -/
  cipherSuites : List UInt16
  /-- The compression methods. -/
  compressionMethods : Bytes
  /-- The entries of the extension block, if there is one. -/
  extensions : Option (List Extension)
  deriving DecidableEq

namespace HelloMessage

/-- Bytes after their length, which takes `width` bytes. -/
def counted (width : Nat) (b : Bytes) : Bytes := Bytes.ofNat width b.length ++ b

/-- The bytes of the extension block, if there is one. -/
def encodeExtensions : Option (List Extension) → Bytes
  | none => []
  | some list => counted 2 (list.flatMap Extension.encode)

/-- The bytes of a message's body. -/
def body (message : HelloMessage) : Bytes :=
  Bytes.ofNat 2 message.version.toNat ++ message.random.val ++ counted 1 message.sessionId ++
    counted 2 (Bytes.ofCodes message.cipherSuites) ++ counted 1 message.compressionMethods ++
    encodeExtensions message.extensions

/-- The bytes of a message. -/
def encode (message : HelloMessage) : Bytes := ClientHello.messageType :: counted 3 message.body

end HelloMessage

/-- The body of a server name extension with one host name. -/
def ServerName.encode (name : Bytes) : Bytes :=
  Bytes.ofNat 2 1 ++ hostNameType :: HelloMessage.counted 2 name

end SplitHello

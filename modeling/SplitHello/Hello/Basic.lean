import SplitHello.Bytes

/-!
# Hello/Basic — the client hello

The first message of a TLS handshake, decoded: the fields that every hello has, and what its
recognised extensions say.  What an absent extension would say is `none`, `false` or empty.
-/

namespace SplitHello

/-- The client's random: 32 bytes. -/
abbrev ClientRandom := { bytes : Bytes // bytes.length = 32 }

/-- A client hello. -/
structure ClientHello where
  /-- The whole handshake message, its header included. -/
  raw : Bytes
  /-- The legacy protocol version. -/
  version : UInt16
  /-- The client's random. -/
  random : ClientRandom
  /-- The session ID. -/
  sessionId : Bytes
  /-- The offered cipher suites, in order. -/
  cipherSuites : List UInt16
  /-- The compression methods. -/
  compressionMethods : Bytes
  /-- The first host name of the server name extension. -/
  sni : Option Bytes
  /-- Whether the certificate's status is asked for over OCSP. -/
  ocspStapling : Bool
  /-- The supported curves. -/
  supportedCurves : List UInt16
  /-- The supported point formats. -/
  supportedPoints : Bytes
  /-- Whether session tickets are supported. -/
  ticketSupported : Bool
  /-- The session ticket. -/
  sessionTicket : Bytes
  /-- Whether next protocol negotiation is offered. -/
  nextProtoNeg : Bool
  deriving DecidableEq

namespace ClientHello

/-- The hello that says nothing. -/
def empty : ClientHello where
  raw := []
  version := 0
  random := ⟨List.replicate 32 0, List.length_replicate⟩
  sessionId := []
  cipherSuites := []
  compressionMethods := []
  sni := none
  ocspStapling := false
  supportedCurves := []
  supportedPoints := []
  ticketSupported := false
  sessionTicket := []
  nextProtoNeg := false

/-- The host name as a text, if its bytes are one. -/
def serverName (hello : ClientHello) : Option String :=
  hello.sni.bind fun name => String.fromUTF8? ⟨name.toArray⟩

/-- Whether a cipher suite is offered. -/
def offers (hello : ClientHello) (suite : UInt16) : Bool :=
  hello.cipherSuites.contains suite

end ClientHello

end SplitHello

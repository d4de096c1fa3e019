import SplitHello.Policy.Basic
import SplitHello.Record.ReadError
import SplitHello.Text.Milliseconds

/-!
# Journal/Note — remarks made along the way

A `Note` is one remark of the library on what it is doing, with what it is about.  Its level, its
message and its fields as they are shown are read off it here and nowhere else.
-/

namespace SplitHello

/-- How much a note matters. -/
inductive Level where
  | debug
  | warn
  | error
  deriving DecidableEq

/-- The value of a field of a note. -/
inductive FieldValue where
  | number (n : Nat)
  | flag (b : Bool)
  | text (s : String)
  deriving DecidableEq

/-- A remark of the library on what it is doing. -/
inductive Note where
  /-- An extension of `length` bytes was decoded. -/
  | decodedExtension (type : ExtensionType) (length : Nat)
  /-- A client hello was decoded. -/
  | parsedHello (version : UInt16) (cipherSuites : Nat) (serverName : Option String) (ticket : Bool)
  /-- A record's header was accepted. -/
  | readHeader (contentType : UInt8) (version payloadLength : UInt16)
  /-- A record's payload was taken in; so many bytes of messages and of later records are held. -/
  | appendedPayload (buffered pending : Nat)
  /-- A message goes on in the next record. -/
  | messageContinues (missing : Nat)
  /-- A splitter was set up. -/
  | created (policy : Policy)
  /-- A write to a splitter began. -/
  | beganWrite (length : Nat) (first : Bool)
  /-- The first write is no client hello. -/
  | notClientHello (error : ReadError)
  /-- The first write does not hold the server name in one piece. -/
  | serverNameMissing (serverName : Option String)
  /-- The first write is cut around the server name. -/
  | splitting (serverName : Option String) (offset before after : Nat)
  /-- A fragment is about to be written. -/
  | writingFragment (zone : String) (index position length : Nat) (delay : UInt64)
  /-- A zone was written. -/
  | zoneWritten (zone : String) (fragments bytes : Nat)
  /-- A fragment was not written. -/
  | fragmentFailed (zone : String) (written : Nat) (error : IoError)
  /-- A write passed on to the transport failed. -/
  | forwardFailed (error : IoError)
  deriving DecidableEq

/-- An interval, named field by named field. -/
def Interval.describe (iv : Interval) : String :=
  s!"Interval \x7b min: {iv.min.toNat}, max: {iv.max.toNat} \x7d"

/-- A policy, named field by named field. -/
def Policy.describe (policy : Policy) : String :=
  "FragmentationPolicy \x7b before_sni: " ++ policy.beforeSni.describe ++
    ", sni: " ++ policy.sni.describe ++ ", after_sni: " ++ policy.afterSni.describe ++
    ", delay_ms: " ++ policy.delayMs.describe ++ " \x7d"

namespace Note

/-- A server name that may be absent. -/
def describeName : Option String → FieldValue
  | none => .text "None"
  | some name => .text ("Some(" ++ Text.quoted name ++ ")")

/-- How much a note matters. -/
def level : Note → Level
  | notClientHello _ | serverNameMissing _ => .warn
  | fragmentFailed _ _ _ | forwardFailed _ => .error
  | _ => .debug

/-- A note in words. -/
def message : Note → String
  | decodedExtension _ _ => "decoded extension"
  | parsedHello _ _ _ _ => "parsed ClientHello"
  | readHeader _ _ _ => "read record header"
  | appendedPayload _ _ => "appended record payload"
  | messageContinues _ => "handshake message continues in next record"
  | created _ => "creating fragmenting stream"
  | beganWrite _ _ => "write"
  | notClientHello _ => "first write is not a ClientHello, sending it unmodified"
  | serverNameMissing _ => "server name missing from first write, sending it unmodified"
  | splitting _ _ _ _ => "splitting ClientHello around server name"
  | writingFragment _ _ _ _ _ => "writing fragment"
  | zoneWritten _ _ _ => "zone written"
  | fragmentFailed _ _ _ => "fragment write failed"
  | forwardFailed _ => "transport write failed"

/-- What a note is about, by name. -/
def fields : Note → List (String × FieldValue)
  | decodedExtension type length => [("ext", .text type.name), ("len", .number length)]
  | parsedHello version cipherSuites serverName ticket =>
      [("version", .number version.toNat), ("cipher_suites", .number cipherSuites),
        ("server_name", describeName serverName), ("ticket", .flag ticket)]
  | readHeader contentType version payloadLength =>
      [("content_type", .number contentType.toNat), ("version", .number version.toNat),
        ("payload_len", .number payloadLength.toNat)]
  | appendedPayload buffered pending =>
      [("buffered", .number buffered), ("pending", .number pending)]
  | messageContinues missing => [("missing", .number missing)]
  | created policy => [("policy", .text policy.describe)]
  | beganWrite length first => [("len", .number length), ("first", .flag first)]
  | notClientHello error => [("error", .text error.message)]
  | serverNameMissing serverName => [("server_name", describeName serverName)]
  | splitting serverName offset before after =>
      [("server_name", describeName serverName), ("offset", .number offset),
        ("before", .number before), ("after", .number after)]
  | writingFragment zone index position length delay =>
      [("zone", .text zone), ("fragment", .number index), ("pos", .number position),
        ("len", .number length), ("delay", .text (Text.milliseconds delay.toNat))]
  | zoneWritten zone fragments bytes =>
      [("zone", .text zone), ("fragments", .number fragments), ("bytes", .number bytes)]
  | fragmentFailed zone written error =>
      [("zone", .text zone), ("written", .number written), ("error", .text error.message)]
  | forwardFailed error => [("error", .text error.message)]

end Note

end SplitHello

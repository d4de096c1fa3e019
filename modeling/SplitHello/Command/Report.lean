import SplitHello.Hello.Message
import SplitHello.Record.Reassembly
import SplitHello.Zones

/-!
# Command/Report — a sample hello, decoded and described

The sample is a hello whose message is spread over two records.  The report decodes it from them and
says, line by line, what it holds and where its host name stands.
-/

namespace SplitHello.Report

/-! ## The sample -/

/-- The sample's host name. -/
def sampleHost : String := "www.example.com"

/-- The sample's extensions. -/
def sampleExtensions : List Extension :=
  [⟨ExtensionType.serverName.code, ServerName.encode sampleHost.toUTF8.toList⟩,
    ⟨ExtensionType.supportedCurves.code,
      HelloMessage.counted 2 (Bytes.ofCodes [0x001d, 0x0017])⟩,
    ⟨ExtensionType.supportedPoints.code, HelloMessage.counted 1 [0]⟩,
    ⟨ExtensionType.sessionTicket.code, []⟩]

/-- The sample's message. -/
def sampleMessage : HelloMessage where
  version := 0x0303
  random := ⟨List.replicate 32 0x42, List.length_replicate⟩
  sessionId := []
  cipherSuites := [0xc02f, 0x1301]
  compressionMethods := [0]
  extensions := some sampleExtensions

/-- The sample's records: each carries one half of the message. -/
def sampleRecords : Bytes :=
  let message := sampleMessage.encode
  let half := message.length / 2
  Record.encode ⟨0x0301, message.take half⟩ ++ Record.encode ⟨0x0301, message.drop half⟩

/-! ## The report -/

/-- Texts in brackets. -/
def listText (items : List String) : String := "[" ++ ", ".intercalate items ++ "]"

/-- Bytes in brackets, two hexadecimal digits each. -/
def bytesText (b : Bytes) : String := listText (b.map fun byte => Text.hexDigits 2 byte.toNat)

/-- Codes in brackets, each as a quoted text. -/
def codesText (codes : List UInt16) : String :=
  listText (codes.map fun code => Text.quoted (Text.hex 4 code.toNat))

/-- The line on the host name. -/
def nameLine (hello : ClientHello) : String :=
  match hello.sni, hello.serverName with
  | _, some name => "SNI: " ++ name
  | some bytes, none => "SNI (not UTF-8): " ++ bytesText bytes
  | none, none => "SNI: none"

/-- The line on where the host name stands, if it does. -/
def placeLine (records : Bytes) (hello : ClientHello) : List String :=
  match hello.sni.bind (Zones.around records) with
  | none => []
  | some zones =>
      [s!"Hostname at offset {zones.offset}: " ++
        s!"{zones.before.length} bytes before, {zones.after.length} after"]

/-- The report on a hello from records. -/
def lines (records : Bytes) (hello : ClientHello) : List String :=
  ["Legacy version: " ++ Text.hex 4 hello.version.toNat,
    "Random: " ++ bytesText hello.random.val,
    s!"Session ID ({hello.sessionId.length} bytes): " ++ bytesText hello.sessionId,
    "Cipher suites: " ++ codesText hello.cipherSuites,
    nameLine hello] ++
  (if hello.supportedCurves.isEmpty then []
    else ["Supported curves: " ++ codesText hello.supportedCurves]) ++
  ["Point formats: " ++ listText (hello.supportedPoints.map fun p => p.toNat.repr),
    s!"OCSP stapling: {hello.ocspStapling}",
    s!"Session ticket: {hello.ticketSupported} ({hello.sessionTicket.length} bytes)",
    s!"Handshake message: {hello.raw.length} bytes"] ++
  placeLine records hello

end SplitHello.Report

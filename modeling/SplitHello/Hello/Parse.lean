import SplitHello.Hello.Extension
import SplitHello.Journal.Note

/-!
# Hello/Parse — a client hello from the bytes of a handshake message

A handshake message is a type, a three-byte length and a body of that length; bytes after it are
not looked at.  The body of a client hello is a row of fields and then, if any byte is left, one
block of extensions that fills it.  Every length is checked against the bytes it speaks of, and the
first problem in the order of the bytes is the error.

* `parse` — the hello, or the first problem;
* `parseNotes` — the notes made while parsing.
-/

namespace SplitHello

namespace ClientHello

/-- The type of a handshake message that is a client hello. -/
def messageType : UInt8 := 1

/-- The length of a handshake message's header: its type and its length. -/
def messageHeaderLength : Nat := 4

/-- The least number of bytes that are looked at. -/
def minLength : Nat := 42

/-- The greatest length of a session ID. -/
def maxSessionIdLength : Nat := 32

/-- The whole handshake message at the start of `data`, and its body. -/
def splitMessage (data : Bytes) : Except ParseError (Bytes × Bytes) := do
  if data.length < minLength then throw (.bufferTooShort minLength data.length)
  let (type, c) ← (Cursor.start data).u8 "handshake type"
  if type ≠ messageType then throw (.notClientHello type)
  let (length, c) ← c.u24 "handshake length"
  let (body, _) ← c.take length "handshake body"
  return (data.take (messageHeaderLength + length), body)

/-- The client's random, next in a message. -/
def takeRandom (c : Cursor) : Except ParseError (ClientRandom × Cursor) :=
  match h : c.take 32 "client random" with
  | .ok (bytes, c) => .ok (⟨bytes, (Cursor.take_eq_ok_iff.mp h).1⟩, c)
  | .error e => .error e

/-- The fields ahead of the extensions. -/
def takeFields (c : Cursor) : Except ParseError (ClientHello × Cursor) := do
  let (version, c) ← c.u16 "legacy version"
  let (random, c) ← takeRandom c
  let (idLength, c) ← c.u8 "session ID length"
  if maxSessionIdLength < idLength.toNat then throw (.sessionIdTooLong idLength.toNat)
  let (sessionId, c) ← c.take idLength.toNat "session ID"
  let (suitesLength, c) ← c.u16 "cipher suites length"
  if suitesLength.toNat % 2 ≠ 0 then throw (.oddCipherSuitesLength suitesLength.toNat)
  let (suites, c) ← c.take suitesLength.toNat "cipher suites"
  let (methodsLength, c) ← c.u8 "compression methods length"
  let (compressionMethods, c) ← c.take methodsLength.toNat "compression methods"
  let hello :=
    { empty with
      version, random, sessionId, compressionMethods, cipherSuites := Bytes.codes suites }
  return (hello, c)

end ClientHello

namespace Extension

/-- The next entry of an extension block. -/
def take (c : Cursor) : Except ParseError (Extension × Cursor) := do
  let (code, c) ← c.u16 "extension type"
  let (length, c) ← c.u16 "extension length"
  let (body, c) ← c.take length.toNat "extension body"
  return (⟨code, body⟩, c)

/-- An entry takes at least one byte. -/
theorem length_rest_of_take {c c' : Cursor} {x : Extension} (h : take c = .ok (x, c')) :
    c'.rest.length < c.rest.length := by
  unfold take Cursor.u16 Cursor.number at h
  cases h₁ : c.take 2 "extension type" with
  | error e => simp [h₁, Except.map, bind, Except.bind] at h
  | ok r₁ =>
    obtain ⟨b₁, c₁⟩ := r₁
    cases h₂ : c₁.take 2 "extension length" with
    | error e => simp [h₁, h₂, Except.map, bind, Except.bind] at h
    | ok r₂ =>
      obtain ⟨b₂, c₂⟩ := r₂
      simp only [h₁, h₂, Except.map, bind, Except.bind] at h
      split at h
      · cases h
      · rename_i r₃ h₃
        obtain ⟨b₃, c₃⟩ := r₃
        cases h
        have e₁ := Cursor.take_eq_ok_iff.mp h₁
        have e₂ := Cursor.take_eq_ok_iff.mp h₂
        have e₃ := Cursor.take_eq_ok_iff.mp h₃
        rw [← e₁.2.1, ← e₂.2.1, ← e₃.2.1]
        simp only [List.length_append]
        omega

/-- The entries up to the end, or up to the first that is cut off and what is cut off there. -/
def entries (c : Cursor) : List Extension × Option ParseError :=
  if c.isEmpty then ([], none)
  else
    match h : take c with
    | .error e => ([], some e)
    | .ok (x, c') =>
        have : c'.rest.length < c.rest.length := length_rest_of_take h
        let (rest, problem) := entries c'
        (x :: rest, problem)
  termination_by c.rest.length

/-- The entries of an extension block that takes up all that is left, if anything is. -/
def block (c : Cursor) : Except ParseError (List Extension × Option ParseError) := do
  if c.isEmpty then return ([], none)
  let (declared, c) ← c.u16 "extensions length"
  if declared.toNat ≠ c.remaining then
    throw (.extensionsLengthMismatch declared.toNat c.remaining)
  return entries c

/-- The notes on the entries that are decoded, up to the first faulty one. -/
def notes : List Extension → List Note
  | [] => []
  | x :: rest =>
      match x.decode with
      | .ok none => notes rest
      | .ok (some value) => .decodedExtension value.type x.body.length :: notes rest
      | .error _ => []

end Extension

namespace ClientHello

/-- The parts of a message: the hello without its extensions, their entries, and what is cut off
among them. -/
def sections (data : Bytes) :
    Except ParseError (ClientHello × List Extension × Option ParseError) := do
  let (raw, body) ← splitMessage data
  let (hello, c) ← takeFields (Cursor.start body)
  let (entries, problem) ← Extension.block c
  return ({ hello with raw }, entries, problem)

/-- The hello at the start of `data`. -/
def parse (data : Bytes) : Except ParseError ClientHello := do
  let (hello, entries, problem) ← sections data
  let hello ← entries.foldlM apply hello
  match problem with
  | none => return hello
  | some e => throw e

/-- The note on a decoded hello. -/
def note (hello : ClientHello) : Note :=
  .parsedHello hello.version hello.cipherSuites.length hello.serverName hello.ticketSupported

/-- The notes made while parsing `data`. -/
def parseNotes (data : Bytes) : List Note :=
  match sections data with
  | .error _ => []
  | .ok (_, entries, _) => Extension.notes entries ++ (parse data).toOption.toList.map note

end ClientHello

end SplitHello

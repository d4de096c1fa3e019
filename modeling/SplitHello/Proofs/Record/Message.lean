import SplitHello.Hello.Message
import SplitHello.Record.Reassembly

/-!
# Proofs/Record/Message — the handshake message at the front of what is buffered

A handshake message of any type is its type, a three-byte length and a body of that length.  Its
header is all that is looked at until it is there whole.

* `HandshakeMessage.messageAhead_append` — a message at the front is seen, with anything behind it;
* `exists_message_of_messageAhead` — what is seen at the front, if it is there whole, is a message.
-/

namespace SplitHello

/-- A handshake message. -/
structure HandshakeMessage where
  /-- What kind of message it is. -/
  type : UInt8
  /-- What it says. -/
  body : Bytes
  /-- The length of the body fits three bytes. -/
  length_lt : body.length < Bytes.capacity 3

/-- The bytes of a message. -/
def HandshakeMessage.encode (message : HandshakeMessage) : Bytes :=
  message.type :: HelloMessage.counted 3 message.body

/-- What a message of some type is decoded as. -/
def ClientHello.ofMessage (type : UInt8) (message : Bytes) : Except ReadError ClientHello :=
  if type ≠ messageType then .error (.notTls (.notClientHello type))
  else (parse message).mapError .notTls

/-- A message that was taken and decoded as a hello is one. -/
theorem ClientHello.parse_of_ofMessage {type : UInt8} {data : Bytes} {hello : ClientHello}
    (h : ofMessage type data = .ok hello) : type = messageType ∧ parse data = .ok hello := by
  rw [ofMessage] at h
  split at h
  · cases h
  · next htype =>
    refine ⟨Classical.not_not.mp htype, ?_⟩
    cases hparse : parse data with
    | error e =>
        rw [hparse] at h
        cases h
    | ok found =>
        rw [hparse] at h
        exact congrArg Except.ok (Except.ok.inj h)

namespace Reassembly

/-- Nothing is seen exactly if the header of a message is not there. -/
theorem messageAhead_eq_none_iff {buffered : Bytes} :
    messageAhead buffered = none ↔ buffered.length < ClientHello.messageHeaderLength := by
  rw [ClientHello.messageHeaderLength]
  obtain _ | ⟨a, _ | ⟨b, _ | ⟨c, _ | ⟨d, rest⟩⟩⟩⟩ := buffered
  · exact iff_of_true rfl (by decide)
  · exact iff_of_true rfl (by simp)
  · exact iff_of_true rfl (by simp)
  · exact iff_of_true rfl (by simp)
  · refine iff_of_false (Option.some_ne_none _) ?_
    simp only [List.length_cons]
    omega

/-- What is seen is seen with anything behind it. -/
theorem messageAhead_append {buffered : Bytes} {seen : UInt8 × Nat}
    (h : messageAhead buffered = some seen) (more : Bytes) :
    messageAhead (buffered ++ more) = some seen := by
  obtain _ | ⟨a, _ | ⟨b, _ | ⟨c, _ | ⟨d, rest⟩⟩⟩⟩ := buffered
  · cases h
  · cases h
  · cases h
  · cases h
  · exact h

end Reassembly

namespace HandshakeMessage

theorem length_encode (message : HandshakeMessage) :
    message.encode.length = ClientHello.messageHeaderLength + message.body.length := by
  rw [encode, List.length_cons, HelloMessage.counted, List.length_append, Bytes.length_ofNat,
    ClientHello.messageHeaderLength]
  omega

/-- **A message at the front is seen**, with anything behind it. -/
theorem messageAhead_append (message : HandshakeMessage) (more : Bytes) :
    Reassembly.messageAhead (message.encode ++ more) =
      some (message.type, message.encode.length) := by
  refine Reassembly.messageAhead_append ?_ more
  have hread := Bytes.toNat_ofNat_of_lt message.length_lt
  simp only [Bytes.ofNat, List.nil_append, List.cons_append] at hread
  rw [length_encode]
  simp only [encode, HelloMessage.counted, Bytes.ofNat, List.nil_append, List.cons_append,
    Reassembly.messageAhead, hread]

end HandshakeMessage

/-- **What is seen at the front, if it is there whole, is a message.** -/
theorem exists_message_of_messageAhead {buffered : Bytes} {type : UInt8} {length : Nat}
    (h : Reassembly.messageAhead buffered = some (type, length))
    (hlength : length ≤ buffered.length) :
    ∃ message : HandshakeMessage, message.type = type ∧ buffered.take length = message.encode := by
  unfold Reassembly.messageAhead at h
  split at h
  · next type' l₂ l₁ l₀ rest =>
    obtain ⟨rfl, rfl⟩ := Prod.mk.inj (Option.some.inj h)
    have hlt : Bytes.toNat [l₂, l₁, l₀] < Bytes.capacity 3 := Bytes.toNat_lt [l₂, l₁, l₀]
    have hbody : (rest.take (Bytes.toNat [l₂, l₁, l₀])).length = Bytes.toNat [l₂, l₁, l₀] := by
      refine List.length_take_of_le ?_
      simp only [List.length_cons, ClientHello.messageHeaderLength] at hlength
      omega
    refine ⟨⟨type', rest.take (Bytes.toNat [l₂, l₁, l₀]), hbody.symm ▸ hlt⟩, rfl, ?_⟩
    have hwritten : Bytes.ofNat 3 (Bytes.toNat [l₂, l₁, l₀]) = [l₂, l₁, l₀] :=
      Bytes.ofNat_toNat [l₂, l₁, l₀]
    change _ = type' :: (Bytes.ofNat 3 (rest.take (Bytes.toNat [l₂, l₁, l₀])).length ++
      rest.take (Bytes.toNat [l₂, l₁, l₀]))
    rw [hbody, hwritten, Nat.add_comm]
    rfl
  · cases h

end SplitHello

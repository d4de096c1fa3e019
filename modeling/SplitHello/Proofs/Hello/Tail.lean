import SplitHello.Proofs.Hello.Parse

/-!
# Proofs/Hello/Tail — bytes behind a message

A message says how long it is, and nothing behind that length is ever looked at: what stands there
settles neither a hello nor an error.  The body is split off by that length alone, so a length
inside it can only be met from inside it.

* `splitMessage_counted` — what is split off a whole message, whatever stands behind it;
* `sections_eq_of_take_eq` — bytes with the same message in front have the same parts;
* `parse_ignores_tail` — so they are parsed alike, and a hello is parsed again from its message.
-/

namespace SplitHello.ClientHello

open HelloMessage (counted)

/-- The length that a handshake message declares behind its type. -/
def declaredLength (data : Bytes) : Nat := Bytes.toNat ((data.drop 1).take 3)

/-- A handshake message that is all there is its type and a counted body. -/
theorem exists_take_eq_counted {data : Bytes}
    (hwhole : messageHeaderLength + declaredLength data ≤ data.length) :
    ∃ (type : UInt8) (body : Bytes), body.length < Bytes.capacity 3 ∧
      data.take (messageHeaderLength + declaredLength data) = type :: counted 3 body := by
  obtain _ | ⟨type, behind⟩ := data
  · exact absurd hwhole (by decide)
  · have hlength : declaredLength (type :: behind) = Bytes.toNat (behind.take 3) := rfl
    rw [hlength, messageHeaderLength, List.length_cons] at hwhole
    rw [hlength, messageHeaderLength]
    generalize hn : Bytes.toNat (behind.take 3) = n at hwhole ⊢
    have hthree : (behind.take 3).length = 3 := List.length_take_of_le (by omega)
    have hbody : ((behind.drop 3).take n).length = n := by
      rw [List.length_take, List.length_drop]
      omega
    have hwritten : Bytes.ofNat 3 n = behind.take 3 := by
      have hback := Bytes.ofNat_toNat (behind.take 3)
      rwa [hthree, hn] at hback
    have hfits : n < Bytes.capacity 3 := by
      have hlt := Bytes.toNat_lt (behind.take 3)
      rwa [hthree, hn] at hlt
    refine ⟨type, (behind.drop 3).take n, hbody.symm ▸ hfits, ?_⟩
    rw [counted, hbody, hwritten, ← List.take_add, Nat.add_right_comm 3 1 n, List.take_succ_cons]

/-- **A whole message is split off by its length**, or refused by its type, whatever stands behind
it. -/
theorem splitMessage_counted (type : UInt8) {body rest : Bytes}
    (hfits : body.length < Bytes.capacity 3)
    (hlong : minLength ≤ (type :: counted 3 body ++ rest).length) :
    splitMessage (type :: counted 3 body ++ rest) =
      if type = messageType then .ok (type :: counted 3 body, body)
      else .error (.notClientHello type) := by
  obtain ⟨c', hreaches⟩ := Cursor.reaches_start_iff.mpr
    (List.prefix_append (type :: counted 3 body) rest)
  obtain ⟨m₁, htype, hcounted⟩ := Cursor.reaches_cons_iff.mp hreaches
  obtain ⟨m₂, hlength, hbody⟩ := Cursor.reaches_counted_iff.mp hcounted
  have hread : (Cursor.start (type :: counted 3 body ++ rest)).u8 "handshake type" =
      .ok (type, m₁) := Cursor.u8_eq_ok_iff.mpr htype
  have hdeclared : m₁.u24 "handshake length" = .ok (body.length, m₂) :=
    Cursor.number_eq_ok_iff.mpr ⟨hfits, hlength⟩
  have htaken : m₂.take body.length "handshake body" = .ok (body, c') :=
    Cursor.take_eq_ok_iff_reaches.mpr ⟨rfl, hbody⟩
  have hcount : (type :: counted 3 body).length = messageHeaderLength + body.length := by
    rw [List.length_cons, counted, List.length_append, Bytes.length_ofNat, messageHeaderLength]
    omega
  rw [splitMessage, if_neg (Nat.not_lt.mpr hlong)]
  simp only [hread, hdeclared, htaken, bind, Except.bind, pure, Except.pure]
  rw [ite_not, List.take_left' hcount]
  rfl

/-- **Bytes with the same message in front have the same parts.** -/
theorem sections_eq_of_take_eq {data other : Bytes} (hlong : minLength ≤ data.length)
    (hother : minLength ≤ other.length)
    (hwhole : messageHeaderLength + declaredLength data ≤ data.length)
    (hfront : data.take (messageHeaderLength + declaredLength data) =
      other.take (messageHeaderLength + declaredLength data)) :
    sections data = sections other := by
  obtain ⟨type, body, hfits, htake⟩ := exists_take_eq_counted hwhole
  have hsplit : ∀ {bytes : Bytes}, minLength ≤ bytes.length →
      bytes.take (messageHeaderLength + declaredLength data) = type :: counted 3 body →
      splitMessage bytes = if type = messageType then .ok (type :: counted 3 body, body)
        else .error (.notClientHello type) := by
    intro bytes hlong hbytes
    rw [← List.take_append_drop (messageHeaderLength + declaredLength data) bytes, hbytes]
      at hlong ⊢
    exact splitMessage_counted type hfits hlong
  rw [sections, sections, hsplit hlong htake, hsplit hother (hfront ▸ htake)]

/-- **A hello is parsed again from its message**, whatever stands behind it. -/
theorem parse_raw_append {data : Bytes} {hello : ClientHello} (h : parse data = .ok hello)
    (tail : Bytes) : parse (hello.raw ++ tail) = .ok hello := by
  obtain ⟨message, said, rest, hbounded, hsaid, -, rfl⟩ := exists_message_of_parse h
  exact parse_encode_append hbounded hsaid tail

/-- **Bytes behind a message never matter.**  Two inputs that are long enough to be looked at, that
hold all of the message that they declare and that agree up to its end are parsed alike: to the same
hello or the same error, and with the same notes.  A hello is parsed again from the message that it
keeps, whatever stands behind it. -/
theorem parse_ignores_tail :
    (∀ data other : Bytes, minLength ≤ data.length → minLength ≤ other.length →
      messageHeaderLength + declaredLength data ≤ data.length →
      data.take (messageHeaderLength + declaredLength data) =
        other.take (messageHeaderLength + declaredLength data) →
      parse data = parse other ∧ parseNotes data = parseNotes other) ∧
    ∀ (data : Bytes) (hello : ClientHello), parse data = .ok hello →
      ∀ tail : Bytes, parse (hello.raw ++ tail) = .ok hello := by
  refine ⟨fun data other hlong hother hwhole hfront => ?_, fun _ _ => parse_raw_append⟩
  have hsections := sections_eq_of_take_eq hlong hother hwhole hfront
  have hparse : parse data = parse other := by rw [parse, parse, hsections]
  exact ⟨hparse, by rw [parseNotes, parseNotes, hsections, hparse]⟩

/-- A message of five bytes has no room for its random, with zeros behind it and with sevens; and
the smallest hello is read from its message with anything behind it. -/
theorem parse_ignores_tail_sample :
    let data : Bytes := [1, 0, 0, 5, 3, 3, 0, 0, 0] ++ List.replicate 40 0
    let other : Bytes := [1, 0, 0, 5, 3, 3, 0, 0, 0] ++ List.replicate 60 7
    let least : Bytes := [1, 0, 0, 41, 3, 3] ++ List.replicate 32 0 ++ [0, 0, 2, 19, 1, 1, 0]
    minLength ≤ data.length ∧ minLength ≤ other.length ∧
      messageHeaderLength + declaredLength data ≤ data.length ∧
      data.take (messageHeaderLength + declaredLength data) =
        other.take (messageHeaderLength + declaredLength data) ∧
      parse data = .error (.truncated "client random") ∧ parse data = parse other ∧
      ∃ hello, parse least = .ok hello ∧ ∀ tail : Bytes, parse (hello.raw ++ tail) = .ok hello := by
  intro data other least
  obtain ⟨halike, hagain⟩ := parse_ignores_tail
  have hlong : minLength ≤ data.length := by decide
  have hother : minLength ≤ other.length := by decide
  have hwhole : messageHeaderLength + declaredLength data ≤ data.length := by decide
  have hfront : data.take (messageHeaderLength + declaredLength data) =
      other.take (messageHeaderLength + declaredLength data) := by decide
  have hisSome : (parse least).toOption.isSome = true := by decide +kernel
  refine ⟨hlong, hother, hwhole, hfront, by decide +kernel,
    (halike data other hlong hother hwhole hfront).1, ?_⟩
  cases hleast : parse least with
  | error e =>
      rw [hleast] at hisSome
      cases hisSome
  | ok hello => exact ⟨hello, rfl, hagain least hello hleast⟩

end SplitHello.ClientHello

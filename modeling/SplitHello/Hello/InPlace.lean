import SplitHello.Hello.Extension

/-!
# Hello/InPlace — taking an extension in where the hello stands

`ClientHello.apply` gives a new hello or a fault.  Here the same is done by calls that write one
field after the other into the hello that is there, and what was written ahead of a fault stays
written.

* `afterTaking_eq` — nothing ever is: a call that fails leaves the hello as it was, and any other
  leaves the new hello.
-/

namespace SplitHello.ClientHello

/-- A row of writes into a hello that may fail, with what was written until then. -/
abbrev InPlace := ExceptT ParseError (StateM ClientHello)

/-- The fault of an extension. -/
def refuse (fault : ExtensionFault) : InPlace Unit := throw (.invalidExtension fault)

/-- An extension taken in, by writes into the fields of its type. -/
def takeIn (x : Extension) : InPlace Unit :=
  match ExtensionType.ofCode? x.code with
  | none => pure ()
  | some .serverName =>
      match ServerName.hostName x.body with
      | .ok name => modify fun hello => { hello with sni := name }
      | .error _ => refuse .truncatedServerNames
  | some .statusRequest =>
      match x.body with
      | [] => refuse .emptyStatusRequest
      | status :: _ => do
          if status = ExtensionType.ocspStatus then
            modify fun hello => { hello with ocspStapling := true }
  | some .supportedCurves =>
      match ExtensionType.decodeCurves x.body with
      | .ok curves => modify fun hello => { hello with supportedCurves := curves }
      | .error fault => refuse fault
  | some .supportedPoints =>
      match x.body with
      | [] => refuse .missingPointsLength
      | length :: points => do
          if points.length ≠ length.toNat then refuse .pointsLengthMismatch
          else modify fun hello => { hello with supportedPoints := points }
  | some .sessionTicket => do
      modify fun hello => { hello with ticketSupported := true }
      modify fun hello => { hello with sessionTicket := x.body }
  | some .nextProtoNeg => do
      if x.body.isEmpty then modify fun hello => { hello with nextProtoNeg := true }
      else refuse .nextProtoNegNotEmpty

/-- What a call answers, and the hello that it leaves. -/
def afterTaking (hello : ClientHello) (x : Extension) : Except ParseError Unit × ClientHello :=
  (takeIn x).run hello

/-- **A call that fails leaves the hello as it was**, and any other leaves the new hello. -/
theorem afterTaking_eq (hello : ClientHello) (x : Extension) :
    hello.afterTaking x = match hello.apply x with
      | .ok next => (.ok (), next)
      | .error e => (.error e, hello) := by
  rw [afterTaking, takeIn, apply, Extension.decode]
  cases ExtensionType.ofCode? x.code with
  | none => rfl
  | some type =>
      cases type with
      | serverName =>
          simp only [ExtensionType.decode]
          cases ServerName.hostName x.body <;> rfl
      | statusRequest =>
          obtain _ | ⟨status, rest⟩ := x.body
          · rfl
          · by_cases h : status = ExtensionType.ocspStatus
            · simp only [ExtensionType.decode, h, if_pos, beq_self_eq_true, Except.map, set,
                Bool.or_true]
              rfl
            · simp only [ExtensionType.decode, h, if_neg, beq_eq_false_iff_ne.mpr h, Except.map,
                set, Bool.or_false, not_false_eq_true]
              rfl
      | supportedCurves =>
          simp only [ExtensionType.decode]
          cases ExtensionType.decodeCurves x.body <;> rfl
      | supportedPoints =>
          obtain _ | ⟨length, points⟩ := x.body
          · rfl
          · by_cases h : points.length = length.toNat
            · simp only [ExtensionType.decode, h, ne_eq, not_true, if_false, Except.map]
              rfl
            · simp only [ExtensionType.decode, h, ne_eq, not_false_eq_true, if_true, Except.map]
              rfl
      | sessionTicket => rfl
      | nextProtoNeg =>
          by_cases h : x.body.isEmpty = true
          · simp only [ExtensionType.decode, h, if_true, Except.map]
            rfl
          · simp only [ExtensionType.decode, h, Except.map]
            rfl

end SplitHello.ClientHello

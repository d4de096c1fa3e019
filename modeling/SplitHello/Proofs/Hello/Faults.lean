import SplitHello.Proofs.Cursor

/-!
# Proofs/Hello/Faults — what decoding a hello fails by

Decoding is a row of steps, and it fails by what one of them fails by.  So what is true of the
errors of each step is true of the errors of the whole.

* `FailsBy.bind` — a row of steps fails by what its steps fail by;
* `failsBy_parse` — decoding a hello fails for want of its least length, or for something in the
  message, but never for the header of a record.
-/

namespace SplitHello

/-- Whether an error is one that decoding `data` as a hello can fail by. -/
def ParseError.ofHello (data : Bytes) : ParseError → Prop
  | bufferTooShort need available =>
      need = ClientHello.minLength ∧ available = data.length ∧ available < need
  | notHandshakeRecord _ | sslv2Handshake | unsupportedRecordVersion _ => False
  | notClientHello _ | truncated _ | sessionIdTooLong _ | oddCipherSuitesLength _
  | extensionsLengthMismatch _ _ | invalidExtension _ => True

/-- A step fails only by errors of which `P` is true. -/
def FailsBy {α : Type} (P : ParseError → Prop) (step : Except ParseError α) : Prop :=
  ∀ e, step = .error e → P e

namespace FailsBy

variable {α β : Type} {P : ParseError → Prop} {step : Except ParseError α}

/-- A step that succeeds does not fail. -/
theorem pure (a : α) : FailsBy P (Pure.pure a) := fun _ h => nomatch h

/-- **A row of steps fails by what its steps fail by.** -/
theorem bind {next : α → Except ParseError β} (h : FailsBy P step)
    (hnext : ∀ a, step = .ok a → FailsBy P (next a)) : FailsBy P (step >>= next) := by
  intro e he
  cases step with
  | error e' => exact h e (congrArg Except.error (Except.error.inj he))
  | ok a => exact hnext a rfl e he

/-- A step whose answer is changed fails as it did. -/
theorem map {f : α → β} (h : FailsBy P step) : FailsBy P (step.map f) := by
  intro e he
  cases step with
  | error e' => exact h e (congrArg Except.error (Except.error.inj he))
  | ok a => cases he

/-- A check fails by its error, and what follows it as it does. -/
theorem check {wrong : Prop} [Decidable wrong] {e : ParseError} {next : PUnit → Except ParseError β}
    (h : wrong → P e) (hnext : FailsBy P (next ⟨⟩)) :
    FailsBy P (if wrong then throw e >>= next else next ⟨⟩) := by
  by_cases hwrong : wrong
  · rw [if_pos hwrong]
    intro e' he
    obtain rfl : e = e' := Except.error.inj he
    exact h hwrong
  · rwa [if_neg hwrong]

end FailsBy

variable {data : Bytes}

/-- A field that is cut off fails by its name. -/
theorem failsBy_take (c : Cursor) (n : Nat) (field : String) :
    FailsBy (ParseError.ofHello data) (c.take n field) := by
  intro e he
  obtain ⟨-, rfl⟩ := Cursor.take_eq_error_iff.mp he
  trivial

theorem failsBy_number (c : Cursor) (width : Nat) (field : String) :
    FailsBy (ParseError.ofHello data) (c.number width field) := (failsBy_take c width field).map

theorem failsBy_u8 (c : Cursor) (field : String) :
    FailsBy (ParseError.ofHello data) (c.u8 field) := (failsBy_number c 1 field).map

theorem failsBy_u16 (c : Cursor) (field : String) :
    FailsBy (ParseError.ofHello data) (c.u16 field) := (failsBy_number c 2 field).map

namespace ClientHello

theorem failsBy_takeRandom (c : Cursor) : FailsBy (ParseError.ofHello data) (takeRandom c) := by
  intro e he
  rw [takeRandom] at he
  split at he
  · cases he
  · next e' htake =>
    obtain rfl := Except.error.inj he
    exact failsBy_take c 32 "client random" e' htake

theorem failsBy_splitMessage : FailsBy (ParseError.ofHello data) (splitMessage data) := by
  rw [splitMessage]
  refine .check (fun hshort => ⟨rfl, rfl, hshort⟩) ?_
  refine .bind (failsBy_u8 _ _) fun ⟨type, c⟩ _ => ?_
  refine .check (fun _ => trivial) ?_
  refine .bind (failsBy_number _ _ _) fun ⟨length, c⟩ _ => ?_
  exact .bind (failsBy_take _ _ _) fun _ _ => .pure _

theorem failsBy_takeFields (c : Cursor) : FailsBy (ParseError.ofHello data) (takeFields c) := by
  refine .bind (failsBy_u16 _ _) fun ⟨version, c⟩ _ => ?_
  refine .bind (failsBy_takeRandom _) fun ⟨random, c⟩ _ => ?_
  refine .bind (failsBy_u8 _ _) fun ⟨idLength, c⟩ _ => .check (fun _ => trivial) ?_
  refine .bind (failsBy_take _ _ _) fun ⟨sessionId, c⟩ _ => ?_
  refine .bind (failsBy_u16 _ _) fun ⟨suitesLength, c⟩ _ => .check (fun _ => trivial) ?_
  refine .bind (failsBy_take _ _ _) fun ⟨suites, c⟩ _ => ?_
  refine .bind (failsBy_u8 _ _) fun ⟨methodsLength, c⟩ _ => ?_
  exact .bind (failsBy_take _ _ _) fun _ _ => .pure _

end ClientHello

namespace Extension

theorem failsBy_take (c : Cursor) : FailsBy (ParseError.ofHello data) (take c) := by
  refine .bind (failsBy_u16 _ _) fun ⟨code, c⟩ _ => ?_
  refine .bind (failsBy_u16 _ _) fun ⟨length, c⟩ _ => ?_
  exact .bind (SplitHello.failsBy_take _ _ _) fun _ _ => .pure _

/-- What is cut off among the entries is one of them. -/
theorem ofHello_of_entries (c : Cursor) {e : ParseError} (h : (entries c).2 = some e) :
    e.ofHello data := by
  fun_induction entries c with
  | case1 => cases h
  | case2 c _ e' htake =>
      obtain rfl := Option.some.inj h
      exact failsBy_take c e' htake
  | case3 c _ x c' htake _ rest problem hentries ih =>
      rw [hentries] at ih
      exact ih h

theorem failsBy_block (c : Cursor) : FailsBy (ParseError.ofHello data) (block c) := by
  rw [block]
  split
  · exact .pure _
  · exact .bind (failsBy_u16 _ _) fun ⟨declared, c⟩ _ => .check (fun _ => trivial) (.pure _)

/-- So is what is cut off in an extension block. -/
theorem ofHello_of_block {c : Cursor} {list : List Extension} {e : ParseError}
    (h : block c = .ok (list, some e)) : e.ofHello data := by
  rw [block] at h
  split at h
  · cases h
  · simp only [bind_eq_ok_iff, ite_throw_bind_eq_ok_iff, Prod.exists] at h
    obtain ⟨declared, c', -, -, hentries⟩ := h
    exact ofHello_of_entries c' (congrArg Prod.snd (Except.ok.inj hentries))

end Extension

namespace ClientHello

theorem failsBy_apply (hello : ClientHello) (x : Extension) :
    FailsBy (ParseError.ofHello data) (hello.apply x) := by
  intro e he
  rw [apply] at he
  split at he
  · cases he
  · cases he
  · obtain rfl := Except.error.inj he
    trivial

theorem failsBy_foldlM_apply (list : List Extension) (hello : ClientHello) :
    FailsBy (ParseError.ofHello data) (list.foldlM apply hello) := by
  induction list generalizing hello with
  | nil => exact .pure hello
  | cons x later ih =>
      rw [List.foldlM_cons]
      exact .bind (failsBy_apply hello x) fun hello _ => ih hello

theorem failsBy_sections : FailsBy (ParseError.ofHello data) (sections data) :=
  .bind failsBy_splitMessage fun _ _ => .bind (failsBy_takeFields _) fun _ _ =>
    .bind (Extension.failsBy_block _) fun _ _ => .pure _

/-- What is cut off among the entries of a message is one of them. -/
theorem ofHello_of_sections {hello : ClientHello} {list : List Extension} {e : ParseError}
    (h : sections data = .ok (hello, list, some e)) : e.ofHello data := by
  simp only [sections, bind_eq_ok_iff, Prod.exists] at h
  obtain ⟨raw, body, -, fields, c, -, list', problem, hblock, hend⟩ := h
  obtain ⟨-, hpair⟩ := Prod.mk.inj (Except.ok.inj hend)
  obtain ⟨rfl, rfl⟩ := Prod.mk.inj hpair
  exact Extension.ofHello_of_block hblock

/-- **Decoding a hello fails for want of its least length, or for something in the message**, but
never for the header of a record. -/
theorem failsBy_parse (data : Bytes) : FailsBy (ParseError.ofHello data) (parse data) := by
  refine .bind failsBy_sections fun ⟨hello, list, problem⟩ hsections => ?_
  refine .bind (failsBy_foldlM_apply list hello) fun hello _ => ?_
  cases problem with
  | none => exact .pure hello
  | some e =>
      intro e' he
      obtain rfl : e = e' := Except.error.inj he
      exact ofHello_of_sections hsections

end ClientHello

end SplitHello

import SplitHello.Proofs.Guarded.Cursor
import SplitHello.Proofs.Hello.Parse

/-!
# Proofs/Guarded/Parsing — parsing with guarded operations

The fields, the entries of the extension block and the names in one of them are read one after the
other; each entry is decoded and taken in before the next one is read.

* `keeps_decodeCurves` — a curve list is indexed only if it is long enough;
* `keeps_applyEntries` — taking the entries in one by one is taking them in at the end;
* `slice_of_splitMessage` — a message that is split off can be sliced;
* `run_parse` — **parsing uses no operation outside its domain**.
-/

namespace SplitHello.Guarded

/-! ## Server names -/

/-- The next entry of a list: its type and its name. -/
def entry (r : Reader) : Step ParseError ((UInt8 × Bytes) × Reader) := do
  let (type, r) ← r.u8 "SNI name type"
  let (length, r) ← r.u16 "SNI name length"
  let (name, r) ← r.take length.toNat "SNI name"
  return ((type, name), r)

/-- The first host name among the next `count` entries. -/
def firstHostName : (count : Nat) → Reader → Step ParseError (Option Bytes)
  | 0, _ => return none
  | count + 1, r => do
      let ((type, name), r) ← entry r
      if type = ServerName.hostNameType then return some name else firstHostName count r

/-- The host name in the body of a server name extension. -/
def hostName (body : Bytes) : Step ParseError (Option Bytes) := do
  let (count, r) ← (Reader.start body).u16 "SNI entry count"
  firstHostName count.toNat r

section ServerName

variable {r : Reader} {c : Cursor}

theorem keeps_entry (h : r.StandsAt c) : Keeps Reader.Reads (entry r) (ServerName.entry c) :=
  Reader.keeps_bind (Reader.keeps_u8 h _) fun _ _ _ h =>
    Reader.keeps_bind (Reader.keeps_u16 h _) fun _ _ _ h =>
      Reader.keeps_bind (Reader.keeps_take h _ _) fun _ _ _ h => .ok ⟨rfl, h⟩

theorem keeps_firstHostName : ∀ (count : Nat) {r : Reader} {c : Cursor}, r.StandsAt c →
    Keeps Eq (firstHostName count r) (ServerName.firstHostName count c)
  | 0, _, _, _ => .ok rfl
  | count + 1, _, _, h => by
      refine Reader.keeps_bind (keeps_entry h) fun (type, name) r c hstands => ?_
      dsimp only
      split
      · exact .ok rfl
      · exact keeps_firstHostName count hstands

theorem keeps_hostName (body : Bytes) : Keeps Eq (hostName body) (ServerName.hostName body) :=
  Reader.keeps_bind (Reader.keeps_u16 (Reader.standsAt_start body) _) fun count _ _ h =>
    keeps_firstHostName count.toNat h

end ServerName

/-! ## Extensions -/

/-- The curves in a body. -/
def decodeCurves (body : Bytes) : Step ExtensionFault (List UInt16) := do
  if body.length < 2 then throw .missingCurvesLength
  let high ← use body[0]?
  let low ← use body[1]?
  let length := Bytes.toNat [high, low]
  if length % 2 ≠ 0 ∨ body.length ≠ length + 2 then throw .curvesLengthMismatch
  let list ← use (slice body 2 body.length)
  return Bytes.codes list

/-- What the body of an extension of a type says.  Only names are read one after the other, and only
curves by their places. -/
def decode : ExtensionType → Bytes → Step ExtensionFault ExtensionValue
  | .serverName, body =>
      .serverName <$> (hostName body).adapt fun _ => ExtensionFault.truncatedServerNames
  | .supportedCurves, body => .supportedCurves <$> decodeCurves body
  | type, body => .mk (some (type.decode body))

/-- The hello with an entry taken in. -/
def apply (hello : ClientHello) (x : Extension) : Step ParseError ClientHello :=
  match ExtensionType.ofCode? x.code with
  | none => return hello
  | some type => hello.set <$> (decode type x.body).adapt .invalidExtension

/-- The next entry of an extension block. -/
def takeExtension (r : Reader) : Step ParseError (Extension × Reader) := do
  let (code, r) ← r.u16 "extension type"
  let (length, r) ← r.u16 "extension length"
  let (body, r) ← r.take length.toNat "extension body"
  return (⟨code, body⟩, r)

/-- The hello with the entries up to the end taken in, each as it comes. -/
def applyEntries (turns : Nat) (hello : ClientHello) (r : Reader) : Step ParseError ClientHello :=
  match turns with
  | 0 => use none
  | turns + 1 => do
      if ← r.isEmpty then return hello
      let (x, r) ← takeExtension r
      let hello ← apply hello x
      applyEntries turns hello r

/-- The hello with the extension block that takes up all that is left taken in, if anything is. -/
def applyBlock (hello : ClientHello) (r : Reader) : Step ParseError ClientHello := do
  if ← r.isEmpty then return hello
  let (declared, r) ← r.u16 "extensions length"
  let remaining ← r.remaining
  if declared.toNat ≠ remaining then
    throw (.extensionsLengthMismatch declared.toNat remaining)
  applyEntries (remaining + 1) hello r

section Extensions

variable {r : Reader} {c : Cursor}

/-- **A curve list is indexed only if it is long enough.** -/
theorem keeps_decodeCurves : ∀ body : Bytes,
    Keeps Eq (decodeCurves body) (ExtensionType.decodeCurves body)
  | [] | [_] => .error _
  | high :: low :: list => by
      have hlong : ¬ (high :: low :: list).length < 2 := by simp
      have hlist : slice (high :: low :: list) 2 (high :: low :: list).length = some list :=
        slice_rest (Nat.le_add_left 2 list.length)
      have hlength : ∀ n, (high :: low :: list).length ≠ n + 2 ↔ list.length ≠ n := by simp
      rw [decodeCurves, if_neg hlong]
      refine .use rfl (.use rfl ?_)
      rw [ExtensionType.decodeCurves, hlist]
      simp only [hlength]
      split
      · exact .error _
      · exact .ok rfl

theorem keeps_decode (type : ExtensionType) (body : Bytes) :
    Keeps Eq (decode type body) (type.decode body) := by
  cases type with
  | serverName =>
      have hname : ExtensionType.serverName.decode body =
          ((ServerName.hostName body).mapError fun _ =>
            ExtensionFault.truncatedServerNames).map .serverName := by
        rw [ExtensionType.decode]
        cases ServerName.hostName body <;> rfl
      rw [hname]
      exact ((keeps_hostName body).adapt _).map fun _ _ => congrArg _
  | supportedCurves => exact (keeps_decodeCurves body).map fun _ _ => congrArg _
  | _ => exact .of_some _

theorem keeps_apply (hello : ClientHello) (x : Extension) :
    Keeps Eq (apply hello x) (hello.apply x) := by
  have happly : hello.apply x = match ExtensionType.ofCode? x.code with
      | none => .ok hello
      | some type => ((type.decode x.body).mapError .invalidExtension).map hello.set := by
    rw [ClientHello.apply, Extension.decode]
    cases ExtensionType.ofCode? x.code with
    | none => rfl
    | some type => cases h : type.decode x.body <;> simp only [h] <;> rfl
  rw [apply, happly]
  cases ExtensionType.ofCode? x.code with
  | none => exact .ok rfl
  | some type => exact ((keeps_decode type x.body).adapt _).map fun _ _ => congrArg _

theorem keeps_takeExtension (h : r.StandsAt c) :
    Keeps Reader.Reads (takeExtension r) (Extension.take c) :=
  Reader.keeps_bind (Reader.keeps_u16 h _) fun _ _ _ h =>
    Reader.keeps_bind (Reader.keeps_u16 h _) fun _ _ _ h =>
      Reader.keeps_bind (Reader.keeps_take h _ _) fun _ _ _ h => .ok ⟨rfl, h⟩

/-- The hello with entries taken in, unless something is cut off behind them. -/
def applied (hello : ClientHello) (block : List Extension × Option ParseError) :
    Except ParseError ClientHello := do
  let hello ← block.1.foldlM ClientHello.apply hello
  match block.2 with
  | none => return hello
  | some e => throw e

theorem applied_cons (hello : ClientHello) (x : Extension) (rest : List Extension)
    (problem : Option ParseError) :
    applied hello (x :: rest, problem) = hello.apply x >>= (applied · (rest, problem)) := by
  rw [applied, List.foldlM_cons, bind_assoc]
  rfl

/-- The message is kept apart from what the extensions say. -/
theorem applied_raw (hello : ClientHello) (raw : Bytes)
    (block : List Extension × Option ParseError) :
    applied { hello with raw } block =
      applied hello block >>= fun hello => .ok { hello with raw } := by
  obtain ⟨entries, problem⟩ := block
  induction entries generalizing hello with
  | nil => cases problem <;> rfl
  | cons x rest ih =>
      have hset : ∀ value, { hello with raw }.set value = { hello.set value with raw } :=
        fun value => by cases value <;> rfl
      rw [applied_cons, applied_cons, ClientHello.apply, ClientHello.apply]
      cases x.decode with
      | error fault => rfl
      | ok said =>
          cases said with
          | none => exact ih hello
          | some value =>
              change applied ({ hello with raw }.set value) (rest, problem) = _
              rw [hset]
              exact ih (hello.set value)

/-- **Taking the entries in one by one is taking them in at the end**, and every entry leaves fewer
bytes. -/
theorem keeps_applyEntries (hello : ClientHello) (h : r.StandsAt c) {turns : Nat}
    (hturns : c.remaining < turns) :
    Keeps Eq (applyEntries turns hello r) (applied hello (Extension.entries c)) := by
  obtain ⟨turns, rfl⟩ := Nat.exists_eq_add_one_of_ne_zero (Nat.ne_zero_of_lt hturns)
  fun_induction Extension.entries c generalizing hello r turns with
  | case1 c hempty =>
      rw [applyEntries, h.isEmpty_eq, pure_bind, if_pos hempty]
      exact .ok rfl
  | case2 c hempty e htake =>
      have hkeeps := keeps_takeExtension h
      rw [htake] at hkeeps
      rw [applyEntries, h.isEmpty_eq, pure_bind, if_neg hempty, hkeeps.eq_throw]
      exact .error e
  | case3 c hempty _ c' htake hless rest problem hentries ih =>
      have hkeeps := keeps_takeExtension h
      rw [htake] at hkeeps
      obtain ⟨⟨x, r'⟩, hr, rfl, h'⟩ := hkeeps.exists_pure
      have hleft : c'.remaining < turns :=
        Nat.lt_of_lt_of_le hless (Nat.le_of_lt_succ hturns)
      obtain ⟨turns, rfl⟩ := Nat.exists_eq_add_one_of_ne_zero (Nat.ne_zero_of_lt hleft)
      rw [applyEntries, h.isEmpty_eq, pure_bind, if_neg hempty, hr, pure_bind, applied_cons]
      refine (keeps_apply hello x).bind fun _ _ happly => happly ▸ ?_
      rw [← hentries]
      exact ih _ h' turns hleft

/-- So for a whole block. -/
theorem keeps_applyBlock (hello : ClientHello) (h : r.StandsAt c) :
    Keeps Eq (applyBlock hello r) (Extension.block c >>= applied hello) := by
  rw [applyBlock, h.isEmpty_eq, pure_bind, Extension.block]
  by_cases hempty : c.isEmpty
  · rw [if_pos hempty, if_pos hempty]
    exact .ok rfl
  · rw [if_neg hempty, if_neg hempty, bind_assoc]
    refine Reader.keeps_bind (Reader.keeps_u16 h _) fun declared r c h => ?_
    dsimp only
    rw [h.remaining_eq, pure_bind]
    by_cases hwrong : declared.toNat ≠ c.remaining
    · rw [if_pos hwrong, if_pos hwrong]
      exact .error _
    · rw [if_neg hwrong, if_neg hwrong]
      exact keeps_applyEntries hello h (Nat.lt_succ_self _)

end Extensions

/-! ## Hellos -/

/-- The body of the handshake message at the start of `data`, and its length. -/
def splitMessage (data : Bytes) : Step ParseError (Nat × Bytes) := do
  if data.length < ClientHello.minLength then
    throw (.bufferTooShort ClientHello.minLength data.length)
  let (type, r) ← (Reader.start data).u8 "handshake type"
  if type ≠ ClientHello.messageType then throw (.notClientHello type)
  let (length, r) ← r.u24 "handshake length"
  let (body, _) ← r.take length "handshake body"
  return (length, body)

/-- The client's random, next in a message. -/
def takeRandom (r : Reader) : Step ParseError (ClientRandom × Reader) := r.array 32 "client random"

/-- The fields ahead of the extensions. -/
def takeFields (r : Reader) : Step ParseError (ClientHello × Reader) := do
  let (version, r) ← r.u16 "legacy version"
  let (random, r) ← takeRandom r
  let (idLength, r) ← r.u8 "session ID length"
  if ClientHello.maxSessionIdLength < idLength.toNat then throw (.sessionIdTooLong idLength.toNat)
  let (sessionId, r) ← r.take idLength.toNat "session ID"
  let (suitesLength, r) ← r.u16 "cipher suites length"
  if suitesLength.toNat % 2 ≠ 0 then throw (.oddCipherSuitesLength suitesLength.toNat)
  let (suites, r) ← r.take suitesLength.toNat "cipher suites"
  let (methodsLength, r) ← r.u8 "compression methods length"
  let (compressionMethods, r) ← r.take methodsLength.toNat "compression methods"
  let hello :=
    { ClientHello.empty with
      version, random, sessionId, compressionMethods, cipherSuites := Bytes.codes suites }
  return (hello, r)

/-- The hello at the start of `data`. -/
def parse (data : Bytes) : Step ParseError ClientHello := do
  let (length, body) ← splitMessage data
  let (hello, r) ← takeFields (.start body)
  let hello ← applyBlock hello r
  let raw ← use (slice data 0 (ClientHello.messageHeaderLength + length))
  return { hello with raw }

section Hello

variable {r : Reader} {c : Cursor}

theorem keeps_splitMessage (data : Bytes) :
    Keeps (fun x y => x.1 = y.2.length ∧ x.2 = y.2) (splitMessage data)
      (ClientHello.splitMessage data) := by
  rw [splitMessage, ClientHello.splitMessage]
  refine .check Iff.rfl rfl fun _ => ?_
  refine Reader.keeps_bind (Reader.keeps_u8 (Reader.standsAt_start data) _) fun type _ _ h => ?_
  refine .check Iff.rfl rfl fun _ => ?_
  refine Reader.keeps_bind (Reader.keeps_number h 3 _) fun length r c h => ?_
  refine ((Reader.keeps_take h length _).and
    fun _ htake => (Cursor.take_eq_ok_iff.mp htake).1).bind ?_
  rintro ⟨body, _⟩ ⟨_, _⟩ ⟨⟨rfl, _⟩, hlength⟩
  exact .ok ⟨hlength.symm, rfl⟩

/-- **A message that is split off can be sliced.** -/
theorem slice_of_splitMessage {data raw body : Bytes}
    (h : ClientHello.splitMessage data = .ok (raw, body)) :
    slice data 0 (ClientHello.messageHeaderLength + body.length) = some raw := by
  obtain ⟨-, -, hraw, hprefix⟩ := ClientHello.splitMessage_eq_ok_iff.mp h
  have hlength : raw.length = ClientHello.messageHeaderLength + body.length := by
    rw [hraw, List.length_cons, HelloMessage.counted, List.length_append, Bytes.length_ofNat,
      ClientHello.messageHeaderLength]
    omega
  rw [← hlength, slice_front hprefix.length_le, ← List.prefix_iff_eq_take.mp hprefix]

theorem keeps_takeRandom (h : r.StandsAt c) :
    Keeps Reader.Reads (takeRandom r) (ClientHello.takeRandom c) := by
  have hkeeps := Reader.keeps_array h 32 "client random"
  rw [ClientHello.takeRandom]
  split
  · next bytes c' htake =>
    rw [htake] at hkeeps
    obtain ⟨random, hr, hbytes, hstands⟩ := hkeeps.exists_pure
    rw [takeRandom, hr]
    exact .ok ⟨Subtype.ext hbytes, hstands⟩
  · next e htake =>
    rw [htake] at hkeeps
    rw [takeRandom, hkeeps.eq_throw]
    exact .error e

theorem keeps_takeFields (h : r.StandsAt c) :
    Keeps Reader.Reads (takeFields r) (ClientHello.takeFields c) := by
  refine Reader.keeps_bind (Reader.keeps_u16 h _) fun version _ _ h => ?_
  refine Reader.keeps_bind (keeps_takeRandom h) fun random _ _ h => ?_
  refine Reader.keeps_bind (Reader.keeps_u8 h _) fun idLength _ _ h => ?_
  refine .check Iff.rfl rfl fun _ => ?_
  refine Reader.keeps_bind (Reader.keeps_take h _ _) fun sessionId _ _ h => ?_
  refine Reader.keeps_bind (Reader.keeps_u16 h _) fun suitesLength _ _ h => ?_
  refine .check Iff.rfl rfl fun _ => ?_
  refine Reader.keeps_bind (Reader.keeps_take h _ _) fun suites _ _ h => ?_
  refine Reader.keeps_bind (Reader.keeps_u8 h _) fun methodsLength _ _ h => ?_
  exact Reader.keeps_bind (Reader.keeps_take h _ _) fun methods _ _ h => .ok ⟨rfl, h⟩

theorem keeps_parse (data : Bytes) : Keeps Eq (parse data) (ClientHello.parse data) := by
  have hparse : ClientHello.parse data =
      ClientHello.splitMessage data >>= fun message =>
        ClientHello.takeFields (.start message.2) >>= fun fields =>
          Extension.block fields.2 >>= applied { fields.1 with raw := message.1 } := by
    simp only [ClientHello.parse, ClientHello.sections, bind_assoc, pure_bind]
    rfl
  rw [hparse]
  refine ((keeps_splitMessage data).and fun _ => slice_of_splitMessage).bind ?_
  rintro ⟨length, body⟩ ⟨raw, _⟩ ⟨⟨hlength, rfl⟩, hslice⟩
  obtain rfl : length = body.length := hlength
  refine Reader.keeps_bind (keeps_takeFields (Reader.standsAt_start _)) fun hello r c h => ?_
  have hraw : (Extension.block c >>= applied { hello with raw }) =
      (Extension.block c >>= applied hello) >>= fun hello => .ok { hello with raw } := by
    rw [bind_assoc]
    exact congrArg _ (funext (applied_raw hello raw))
  dsimp only
  rw [hraw]
  refine (keeps_applyBlock hello h).bind ?_
  rintro hello _ rfl
  exact .use hslice (.ok rfl)

/-- **Parsing uses no operation outside its domain.** -/
theorem run_parse (data : Bytes) : (parse data).run = some (ClientHello.parse data) :=
  (keeps_parse data).run_eq

end Hello

end SplitHello.Guarded

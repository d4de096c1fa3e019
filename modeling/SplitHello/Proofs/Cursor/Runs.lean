import SplitHello.Hello.Parse
import SplitHello.Proofs.Cursor

/-!
# Proofs/Cursor/Runs — runs of reads, of which any may fail

A run of calls reads on from where the last successful read ended.  Reading in place is reading with
one cursor that every read moves: a read that fails leaves it wherever it has got to by then.  Since
all reads look at what is left before they move it, that is where the read began, and the two ways
to read agree.

* `read_of_le`, `read_of_lt` — a read succeeds exactly if as many bytes are left as it takes;
* `InPlace.answer_read` — reading in place and reading from one cursor to the next agree;
* `Exact` — what one call takes of the data, and what it answers;
* `reaches_run` — past a run of calls is past the bytes that its answers would be written as;
* `run_exact` — every call of a run is answered exactly, and what was read is the front of the data.
-/

namespace SplitHello.Cursor

/-- The next `n` bytes as a run of that many. -/
def array (c : Cursor) (n : Nat) (field : String) :
    Except ParseError ({ bytes : Bytes // bytes.length = n } × Cursor) :=
  match h : c.take n field with
  | .ok (bytes, c) => .ok (⟨bytes, (take_eq_ok_iff.mp h).1⟩, c)
  | .error e => .error e

/-- The cursor past the next `n` bytes. -/
def past (c : Cursor) (n : Nat) : Cursor := ⟨c.position + n, c.rest.drop n⟩

/-- What can be read. -/
inductive Request where
  /-- A byte. -/
  | u8
  /-- A two-byte number. -/
  | u16
  /-- A three-byte number. -/
  | u24
  /-- A run of `n` bytes that has its length in its type. -/
  | array (n : Nat)
  /-- A run of `n` bytes. -/
  | bytes (n : Nat)

/-- How many bytes are taken. -/
def Request.width : Request → Nat
  | u8 => 1
  | u16 => 2
  | u24 => 3
  | array n | bytes n => n

/-- What is read. -/
inductive Value where
  | u8 (byte : UInt8)
  | u16 (n : UInt16)
  | u24 (n : Nat)
  | bytes (b : Bytes)
  deriving DecidableEq

/-- The bytes as which a value is written: a number is written most significant byte first. -/
def Value.written : Value → Bytes
  | u8 byte => Bytes.ofNat 1 byte.toNat
  | u16 n => Bytes.ofNat 2 n.toNat
  | u24 n => Bytes.ofNat 3 n
  | bytes b => b

/-- What is read if these bytes are taken. -/
def Request.value (b : Bytes) : Request → Value
  | u8 => .u8 (UInt8.ofNat b.toNat)
  | u16 => .u16 (UInt16.ofNat b.toNat)
  | u24 => .u24 b.toNat
  | array _ | bytes _ => .bytes b

/-- The read that is requested for a field. -/
def read (c : Cursor) (field : String) : Request → Except ParseError (Value × Cursor)
  | .u8 => (c.u8 field).map fun (byte, c) => (.u8 byte, c)
  | .u16 => (c.u16 field).map fun (n, c) => (.u16 n, c)
  | .u24 => (c.u24 field).map fun (n, c) => (.u24 n, c)
  | .array n => (c.array n field).map fun (b, c) => (.bytes b.val, c)
  | .bytes n => (c.take n field).map fun (b, c) => (.bytes b, c)

/-- One read, and the field that it is for. -/
structure Call where
  request : Request
  field : String

/-- How many bytes a call takes. -/
def Call.width (call : Call) : Nat := call.request.width

/-- The answer to a read, and the cursor to read on from. -/
def settle {α : Type} (c : Cursor) : Except ParseError (α × Cursor) → Except ParseError α × Cursor
  | .ok (a, c') => (.ok a, c')
  | .error e => (.error e, c)

/-- The answer to a call, and the cursor to read on from. -/
def perform (c : Cursor) (call : Call) : Except ParseError Value × Cursor :=
  c.settle (c.read call.field call.request)

/-- The answers to a row of calls, and the cursor to read on from. -/
def run (c : Cursor) : List Call → List (Except ParseError Value) × Cursor
  | [] => ([], c)
  | call :: calls =>
      let (answer, c) := c.perform call
      let (answers, c) := run c calls
      (answer :: answers, c)

/-- The bytes as which the answer to a call is written. -/
def written : Except ParseError Value → Bytes
  | .ok v => v.written
  | .error _ => []

variable {c : Cursor} {n : Nat} {field : String} {call : Call} {data : Bytes}

/-! ## Reading in place -/

/-- A read that moves the cursor that it is given, also if it fails. -/
abbrev InPlace (α : Type) := ExceptT ParseError (StateM Cursor) α

namespace InPlace

/-- The answer of a read in place, and the cursor as it leaves it. -/
def answer {α : Type} (read : InPlace α) (c : Cursor) : Except ParseError α × Cursor :=
  (read.run.run c).run

def array (n : Nat) (field : String) : InPlace { bytes : Bytes // bytes.length = n } := do
  let c ← get
  if h : c.remaining < n then throw (.truncated field)
  else
    set (c.past n)
    return ⟨c.rest.take n, List.length_take_of_le (Nat.le_of_not_lt h)⟩

def bytes (n : Nat) (field : String) : InPlace Bytes := Subtype.val <$> array n field

def number (width : Nat) (field : String) : InPlace Nat := Bytes.toNat <$> bytes width field

def u8 (field : String) : InPlace UInt8 := UInt8.ofNat <$> number 1 field

def u16 (field : String) : InPlace UInt16 := UInt16.ofNat <$> number 2 field

def u24 (field : String) : InPlace Nat := number 3 field

/-- The read in place that is requested for a field. -/
def read (field : String) : Request → InPlace Value
  | .u8 => .u8 <$> u8 field
  | .u16 => .u16 <$> u16 field
  | .u24 => .u24 <$> u24 field
  | .array n => (.bytes ·.val) <$> array n field
  | .bytes n => .bytes <$> bytes n field

end InPlace

/-! ## One read -/

theorem take_of_le (h : n ≤ c.remaining) : c.take n field = .ok (c.rest.take n, c.past n) :=
  take_eq_ok_iff.mpr ⟨List.length_take_of_le h, List.take_append_drop n c.rest, rfl⟩

theorem take_of_lt (h : c.remaining < n) : c.take n field = .error (.truncated field) :=
  take_eq_error_iff.mpr ⟨h, rfl⟩

theorem array_of_le (h : n ≤ c.remaining) :
    c.array n field = .ok (⟨c.rest.take n, List.length_take_of_le h⟩, c.past n) := by
  rw [array]
  split
  · next bytes after hok =>
    obtain ⟨rfl, rfl⟩ := Prod.mk.inj (Except.ok.inj (hok.symm.trans (take_of_le h)))
    rfl
  · next e herror => exact nomatch herror.symm.trans (take_of_le h)

theorem array_of_lt (h : c.remaining < n) : c.array n field = .error (.truncated field) := by
  rw [array]
  split
  · next bytes after hok => exact nomatch hok.symm.trans (take_of_lt h)
  · next e herror =>
    rw [Except.error.inj (herror.symm.trans (take_of_lt h))]

/-- The random of a hello is a run of bytes that has its length in its type. -/
theorem takeRandom_eq_array (c : Cursor) :
    ClientHello.takeRandom c = c.array 32 "client random" := rfl

/-- **A read succeeds if as many bytes are left as it takes**, and reads what these bytes say. -/
theorem read_of_le {request : Request} (h : request.width ≤ c.remaining) :
    c.read field request =
      .ok (request.value (c.rest.take request.width), c.past request.width) := by
  cases request with
  | u8 => rw [read, u8, number, take_of_le (n := 1) h]; rfl
  | u16 => rw [read, u16, number, take_of_le (n := 2) h]; rfl
  | u24 => rw [read, u24, number, take_of_le (n := 3) h]; rfl
  | array n => rw [read, array_of_le (n := n) h]; rfl
  | bytes n => rw [read, take_of_le (n := n) h]; rfl

/-- **A read fails if fewer are left**, and names its field. -/
theorem read_of_lt {request : Request} (h : c.remaining < request.width) :
    c.read field request = .error (.truncated field) := by
  cases request with
  | u8 => rw [read, u8, number, take_of_lt (n := 1) h]; rfl
  | u16 => rw [read, u16, number, take_of_lt (n := 2) h]; rfl
  | u24 => rw [read, u24, number, take_of_lt (n := 3) h]; rfl
  | array n => rw [read, array_of_lt (n := n) h]; rfl
  | bytes n => rw [read, take_of_lt (n := n) h]; rfl

namespace InPlace

/-- What is made of the answers to reads that agree agrees. -/
theorem answer_map {α β : Type} {read : InPlace α} {read' : Except ParseError (α × Cursor)}
    (h : read.answer c = c.settle read') (f : α → β) :
    (f <$> read).answer c = c.settle (read'.map fun (a, c) => (f a, c)) := by
  have hanswer : (f <$> read).answer c = ((read.answer c).1.map f, (read.answer c).2) := by
    rw [answer, ExceptT.run_map, StateT.run_map]
    rfl
  rw [hanswer, h]
  cases read' <;> rfl

/-- A read in place of a run of bytes looks at what is left before it moves the cursor. -/
theorem answer_array (n : Nat) (field : String) (c : Cursor) :
    (array n field).answer c = c.settle (c.array n field) := by
  rcases Nat.lt_or_ge c.remaining n with h | h
  · rw [array_of_lt h]
    change (dite (c.remaining < n) _ _ : InPlace { bytes : Bytes // bytes.length = n }).answer c = _
    rw [dif_pos h]
    rfl
  · rw [array_of_le h]
    change (dite (c.remaining < n) _ _ : InPlace { bytes : Bytes // bytes.length = n }).answer c = _
    rw [dif_neg (Nat.not_lt_of_le h)]
    rfl

theorem answer_bytes (n : Nat) (field : String) (c : Cursor) :
    (bytes n field).answer c = c.settle (c.take n field) := by
  have htake : c.take n field = (c.array n field).map fun (bytes, c) => (bytes.val, c) := by
    rcases Nat.lt_or_ge c.remaining n with h | h
    · rw [array_of_lt h, take_of_lt h]
      rfl
    · rw [array_of_le h, take_of_le h]
      rfl
  rw [htake]
  exact answer_map (answer_array n field c) Subtype.val

theorem answer_number (width : Nat) (field : String) (c : Cursor) :
    (number width field).answer c = c.settle (c.number width field) :=
  answer_map (answer_bytes width field c) Bytes.toNat

/-- **Reading in place and reading from one cursor to the next agree.** -/
theorem answer_read (field : String) (request : Request) (c : Cursor) :
    (read field request).answer c = c.settle (c.read field request) := by
  cases request with
  | u8 => exact answer_map (answer_map (answer_number 1 field c) UInt8.ofNat) Value.u8
  | u16 => exact answer_map (answer_map (answer_number 2 field c) UInt16.ofNat) Value.u16
  | u24 => exact answer_map (answer_number 3 field c) Value.u24
  | array n => exact answer_map (answer_array n field c) fun b => Value.bytes b.val
  | bytes n => exact answer_map (answer_bytes n field c) Value.bytes

end InPlace

/-- A value is written in the bytes of which it was read. -/
theorem Call.written_value (call : Call) {b : Bytes} (h : b.length = call.width) :
    (call.request.value b).written = b := by
  have hwritten := Bytes.ofNat_toNat b
  have hlt := b.toNat_lt
  obtain ⟨request, field⟩ := call
  rw [h] at hwritten hlt
  cases request with
  | u8 => rwa [Request.value, Value.written, UInt8.toNat_ofNat_of_lt' hlt]
  | u16 => rwa [Request.value, Value.written, UInt16.toNat_ofNat_of_lt' hlt]
  | u24 => exact hwritten
  | array n | bytes n => rfl

/-! ## Runs of calls -/

theorem perform_of_le (h : call.width ≤ c.remaining) :
    c.perform call =
      (.ok (call.request.value (c.rest.take call.width)), c.past call.width) := by
  rw [perform, read_of_le h]
  rfl

theorem perform_of_lt (h : c.remaining < call.width) :
    c.perform call = (.error (.truncated call.field), c) := by
  rw [perform, read_of_lt h]
  rfl

theorem reaches_past (h : n ≤ c.remaining) : c.Reaches (c.rest.take n) (c.past n) := by
  refine ⟨(List.take_append_drop n c.rest).symm, ?_⟩
  rw [List.length_take_of_le h]
  rfl

/-- **Past a call is past the bytes as which its answer is written.** -/
theorem reaches_perform (c : Cursor) (call : Call) :
    c.Reaches (written (c.perform call).1) (c.perform call).2 := by
  rcases Nat.lt_or_ge c.remaining call.width with h | h
  · rw [perform_of_lt h]
    exact ⟨rfl, rfl⟩
  · rw [perform_of_le h, written, call.written_value (List.length_take_of_le h)]
    exact reaches_past h

/-- **So is past a run of calls.** -/
theorem reaches_run (c : Cursor) (calls : List Call) :
    c.Reaches ((c.run calls).1.flatMap written) (c.run calls).2 := by
  induction calls generalizing c with
  | nil => exact ⟨rfl, rfl⟩
  | cons call calls ih => exact (reaches_perform c call).trans (ih (c.perform call).2)

theorem run_append (c : Cursor) (before later : List Call) :
    c.run (before ++ later) =
      ((c.run before).1 ++ ((c.run before).2.run later).1, ((c.run before).2.run later).2) := by
  induction before generalizing c with
  | nil => rfl
  | cons call before ih => simp only [List.cons_append, run, ih]

theorem length_run (c : Cursor) (calls : List Call) : (c.run calls).1.length = calls.length := by
  induction calls generalizing c with
  | nil => rfl
  | cons call calls ih => exact congrArg (· + 1) (ih (c.perform call).2)

/-- What is left at a cursor in some data. -/
theorem rest_eq_drop {front : Bytes} (h : (start data).Reaches front c) :
    c.rest = data.drop c.position := by
  have hdata : data = front ++ c.rest := h.1
  rw [h.2, start, Nat.zero_add, hdata, List.drop_left]

/-- How a call at a cursor in `data` is to be answered, and where it is to leave the cursor. -/
structure Exact (data : Bytes) (c : Cursor) (call : Call) (answer : Except ParseError Value)
    (after : Cursor) : Prop where
  /-- It succeeds exactly if as many bytes are left as it takes. -/
  exists_ok_iff : (∃ v, answer = .ok v) ↔ call.width ≤ c.remaining
  /-- Then it takes the bytes at the cursor, which say what is read. -/
  of_ok : ∀ v, answer = .ok v →
    v = call.request.value ((data.drop c.position).take call.width) ∧
      v.written = (data.drop c.position).take call.width ∧
      after = c.past call.width
  /-- Otherwise its field is named, and it takes none. -/
  of_error : ∀ e, answer = .error e → e = .truncated call.field ∧ after = c
  /-- In place it is answered the same, and leaves the cursor at the same place. -/
  in_place : (InPlace.read call.field call.request).answer c = (answer, after)

theorem exact_perform {front : Bytes} (h : (start data).Reaches front c) (call : Call) :
    Exact data c call (c.perform call).1 (c.perform call).2 := by
  have hplace : (InPlace.read call.field call.request).answer c = c.perform call :=
    InPlace.answer_read call.field call.request c
  rcases Nat.lt_or_ge c.remaining call.width with hlt | hle
  · rw [perform_of_lt hlt] at hplace ⊢
    refine ⟨⟨?_, fun hle => absurd hlt (Nat.not_lt_of_le hle)⟩, ?_, ?_, hplace⟩
    · rintro ⟨v, hv⟩
      cases hv
    · intro v hv
      cases hv
    · intro e he
      exact ⟨(Except.error.inj he).symm, rfl⟩
  · rw [perform_of_le hle] at hplace ⊢
    refine ⟨⟨fun _ => hle, fun _ => ⟨_, rfl⟩⟩, ?_, ?_, hplace⟩
    · intro v hv
      rw [← rest_eq_drop h, ← Except.ok.inj hv]
      exact ⟨rfl, call.written_value (List.length_take_of_le hle), rfl⟩
    · intro e he
      cases he

/-- **A cursor is exact**: in any run of calls, each succeeds exactly if as many bytes are left as
it takes, and one that fails names its field and takes none.  What the others took is the front of
the data, and what is left is the rest of it.  Codes that were written are read back, and the other
way. -/
theorem run_exact (data : Bytes) (calls : List Call) :
    (∀ before call later, calls = before ++ call :: later →
      ∃ answer, ((start data).run calls).1[before.length]? = some answer ∧
        Exact data ((start data).run before).2 call answer
          ((start data).run (before ++ [call])).2) ∧
    ((start data).run calls).1.flatMap written =
      data.take ((start data).run calls).2.position ∧
    ((start data).run calls).2.position + ((start data).run calls).2.remaining = data.length ∧
    (∀ list, Bytes.codes (Bytes.ofCodes list) = list) ∧
    ∀ b : Bytes, b.length % 2 = 0 → Bytes.ofCodes (Bytes.codes b) = b := by
  have hreaches := reaches_run (start data) calls
  have hposition : ((start data).run calls).2.position =
      (((start data).run calls).1.flatMap written).length := hreaches.2.trans (Nat.zero_add _)
  refine ⟨?_, ?_, ?_, Bytes.codes_ofCodes, Bytes.ofCodes_codes⟩
  · rintro before call later rfl
    have hanswer : ((start data).run (before ++ call :: later)).1[before.length]? =
        some (((start data).run before).2.perform call).1 := by
      rw [run_append, List.getElem?_append_right (Nat.le_of_eq (length_run _ before)), length_run,
        Nat.sub_self]
      rfl
    refine ⟨_, hanswer, ?_⟩
    rw [run_append]
    exact exact_perform (reaches_run (start data) before) call
  · rw [hposition, take_of_reaches_start hreaches]
  · have hdata : data =
        ((start data).run calls).1.flatMap written ++ ((start data).run calls).2.rest := hreaches.1
    rw [hposition, remaining, ← List.length_append, ← hdata]

/-- Some bytes to be read. -/
def sampleData : Bytes := [0xAA, 1, 2, 3, 4, 5, 6, 7]

/-- Reads of them, of which one asks for too many and another comes when none is left. -/
def sampleCalls : List Call :=
  [⟨.u8, "handshake type"⟩, ⟨.u16, "legacy version"⟩, ⟨.array 9, "client random"⟩,
    ⟨.u24, "handshake length"⟩, ⟨.bytes 2, "session ID"⟩, ⟨.u8, "session ID length"⟩]

/-- A read that fails in the midst of others takes nothing from those after it. -/
theorem run_exact_sample :
    ((start sampleData).run sampleCalls).1 =
      [.ok (.u8 0xAA), .ok (.u16 0x0102), .error (.truncated "client random"),
        .ok (.u24 0x030405), .ok (.bytes [6, 7]), .error (.truncated "session ID length")] ∧
    Exact sampleData ⟨3, [3, 4, 5, 6, 7]⟩ ⟨.array 9, "client random"⟩
      (.error (.truncated "client random")) ⟨3, [3, 4, 5, 6, 7]⟩ ∧
    ((start sampleData).run sampleCalls).1.flatMap written =
      sampleData.take ((start sampleData).run sampleCalls).2.position ∧
    ((start sampleData).run sampleCalls).2.position +
      ((start sampleData).run sampleCalls).2.remaining = sampleData.length ∧
    Bytes.ofCodes (Bytes.codes [6, 7]) = [6, 7] := by
  obtain ⟨hcalls, hfront, hlength, -, hcodes⟩ := run_exact sampleData sampleCalls
  obtain ⟨answer, hanswer, hexact⟩ :=
    hcalls (sampleCalls.take 2) ⟨.array 9, "client random"⟩ (sampleCalls.drop 3) rfl
  obtain rfl : Except.error (.truncated "client random") = answer := Option.some.inj hanswer
  exact ⟨rfl, hexact, hfront, hlength, hcodes [6, 7] rfl⟩

end SplitHello.Cursor

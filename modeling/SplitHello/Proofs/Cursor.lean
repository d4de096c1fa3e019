import SplitHello.Hello.Message

/-!
# Proofs/Cursor — what a read takes, in the bytes that were written

A cursor reaches another past some bytes if they are what stands between the two.  Each kind of read
succeeds exactly if it reaches a cursor past the bytes that its value would be written as.

* `reaches_append_iff` — past two runs of bytes is past the one and then past the other;
* `number_eq_ok_iff`, `u8_eq_ok_iff`, `u16_eq_ok_iff` — what the reads of numbers take;
* `exists_u8_iff_counted`, `exists_u16_iff_counted` — a length and as many bytes are counted bytes;
* `bind_eq_ok_iff` — a row of reads succeeds exactly if each of them does.
-/

namespace SplitHello

/-- A step and what follows it succeed exactly if the step does, and what follows its answer. -/
theorem bind_eq_ok_iff {ε α β : Type} {first : Except ε α} {next : α → Except ε β} {b : β} :
    (first >>= next) = .ok b ↔ ∃ a, first = .ok a ∧ next a = .ok b := by
  cases first with
  | error e => exact ⟨fun h => (nomatch h), fun ⟨_, h, _⟩ => (nomatch h)⟩
  | ok a =>
      refine ⟨fun h => ⟨a, rfl, h⟩, ?_⟩
      rintro ⟨a', ha, h⟩
      obtain rfl := Except.ok.inj ha
      exact h

/-- A step whose answer is changed succeeds exactly if the step does. -/
theorem map_eq_ok_iff {ε α β : Type} {first : Except ε α} {f : α → β} {b : β} :
    first.map f = .ok b ↔ ∃ a, first = .ok a ∧ f a = b := by
  cases first with
  | error e => exact ⟨fun h => (nomatch h), fun ⟨_, h, _⟩ => (nomatch h)⟩
  | ok a =>
      refine ⟨fun h => ⟨a, rfl, Except.ok.inj h⟩, ?_⟩
      rintro ⟨a', ha, h⟩
      obtain rfl := Except.ok.inj ha
      exact congrArg Except.ok h

/-- A check and what follows it succeed exactly if nothing is wrong and what follows does. -/
theorem ite_throw_bind_eq_ok_iff {ε β : Type} {wrong : Prop} [Decidable wrong] {e : ε}
    {next : PUnit → Except ε β} {b : β} :
    (if wrong then throw e >>= next else next ⟨⟩) = .ok b ↔ ¬ wrong ∧ next ⟨⟩ = .ok b := by
  by_cases h : wrong
  · rw [if_pos h]
    exact ⟨fun hthrow => (nomatch hthrow), fun hnot => absurd h hnot.1⟩
  · rw [if_neg h]
    exact (and_iff_right h).symm

namespace Cursor

variable {c c' : Cursor} {field : String}

/-- The second cursor is where the bytes end that start at the first. -/
def Reaches (c : Cursor) (b : Bytes) (c' : Cursor) : Prop :=
  c.rest = b ++ c'.rest ∧ c'.position = c.position + b.length

/-- **Past two runs of bytes is past the one and then past the other.** -/
theorem reaches_append_iff {first second : Bytes} :
    c.Reaches (first ++ second) c' ↔ ∃ m, c.Reaches first m ∧ m.Reaches second c' := by
  constructor
  · rintro ⟨hrest, hposition⟩
    refine ⟨⟨c.position + first.length, second ++ c'.rest⟩, ⟨?_, rfl⟩, rfl, ?_⟩
    · rw [hrest, List.append_assoc]
    · rw [hposition, List.length_append, Nat.add_assoc]
  · rintro ⟨m, ⟨hrest, hposition⟩, hrest', hposition'⟩
    refine ⟨?_, ?_⟩
    · rw [hrest, hrest', List.append_assoc]
    · rw [hposition', hposition, List.length_append, Nat.add_assoc]

theorem Reaches.trans {m : Cursor} {first second : Bytes} (h : c.Reaches first m)
    (h' : m.Reaches second c') : c.Reaches (first ++ second) c' :=
  reaches_append_iff.mpr ⟨m, h, h'⟩

/-- Past a byte and what follows it is past the byte and then past the rest. -/
theorem reaches_cons_iff {byte : UInt8} {later : Bytes} :
    c.Reaches (byte :: later) c' ↔ ∃ m, c.Reaches [byte] m ∧ m.Reaches later c' := by
  rw [← List.singleton_append, reaches_append_iff]

/-- A cursor at the start of some bytes reaches the place behind their front. -/
theorem reaches_start_iff {data front : Bytes} :
    (∃ c', (start data).Reaches front c') ↔ front <+: data := by
  constructor
  · rintro ⟨c', hrest, -⟩
    exact ⟨c'.rest, hrest.symm⟩
  · rintro ⟨rest, hrest⟩
    exact ⟨⟨front.length, rest⟩, hrest.symm, (Nat.zero_add _).symm⟩

theorem take_of_reaches_start {data front : Bytes} (h : (start data).Reaches front c') :
    data.take front.length = front := by
  have hdata : data = front ++ c'.rest := h.1
  rw [hdata, List.take_left]

/-! ## Reads -/

theorem take_eq_ok_iff_reaches {n : Nat} {taken : Bytes} :
    c.take n field = .ok (taken, c') ↔ taken.length = n ∧ c.Reaches taken c' := by
  rw [take_eq_ok_iff, Reaches, eq_comm (a := c.rest)]
  refine and_congr_right fun h => ?_
  rw [h]

/-- **A number is read exactly if it is written there** in as many bytes as it may take. -/
theorem number_eq_ok_iff {width n : Nat} :
    c.number width field = .ok (n, c') ↔
      n < Bytes.capacity width ∧ c.Reaches (Bytes.ofNat width n) c' := by
  rw [number, map_eq_ok_iff]
  constructor
  · rintro ⟨⟨taken, after⟩, htake, h⟩
    obtain ⟨rfl, rfl⟩ := Prod.mk.inj h
    obtain ⟨rfl, hreaches⟩ := take_eq_ok_iff_reaches.mp htake
    rw [Bytes.ofNat_toNat]
    exact ⟨taken.toNat_lt, hreaches⟩
  · rintro ⟨hlt, hreaches⟩
    refine ⟨(Bytes.ofNat width n, c'), ?_, Prod.ext (Bytes.toNat_ofNat_of_lt hlt) rfl⟩
    exact take_eq_ok_iff_reaches.mpr ⟨Bytes.length_ofNat width n, hreaches⟩

/-- A code is read exactly if the number that it stands for is. -/
theorem map_number_eq_ok_iff {α : Type} {code : Nat → α} {width : Nat} {a : α} :
    (c.number width field).map (fun (n, after) => (code n, after)) = .ok (a, c') ↔
      ∃ n < Bytes.capacity width, code n = a ∧ c.Reaches (Bytes.ofNat width n) c' := by
  rw [map_eq_ok_iff]
  constructor
  · rintro ⟨⟨n, after⟩, hnumber, h⟩
    obtain ⟨hcode, rfl⟩ := Prod.mk.inj h
    obtain ⟨hlt, hreaches⟩ := number_eq_ok_iff.mp hnumber
    exact ⟨n, hlt, hcode, hreaches⟩
  · rintro ⟨n, hlt, rfl, hreaches⟩
    exact ⟨(n, c'), number_eq_ok_iff.mpr ⟨hlt, hreaches⟩, rfl⟩

/-- A byte is read exactly if it is there. -/
theorem u8_eq_ok_iff {byte : UInt8} : c.u8 field = .ok (byte, c') ↔ c.Reaches [byte] c' := by
  have hone : Bytes.ofNat 1 byte.toNat = [byte] := by
    rw [Bytes.ofNat, Bytes.ofNat, List.nil_append, UInt8.ofNat_toNat]
  rw [u8, map_number_eq_ok_iff]
  constructor
  · rintro ⟨n, -, rfl, hreaches⟩
    exact hreaches
  · exact fun hreaches => ⟨byte.toNat, byte.toNat_lt, UInt8.ofNat_toNat, hone.symm ▸ hreaches⟩

/-- A two-byte number is read exactly if it is written there. -/
theorem u16_eq_ok_iff {n : UInt16} :
    c.u16 field = .ok (n, c') ↔ c.Reaches (Bytes.ofNat 2 n.toNat) c' := by
  rw [u16, map_number_eq_ok_iff]
  constructor
  · rintro ⟨n, hlt, rfl, hreaches⟩
    rwa [UInt16.toNat_ofNat_of_lt' hlt]
  · exact fun hreaches => ⟨n.toNat, n.toNat_lt, UInt16.ofNat_toNat, hreaches⟩

/-! ## Counted bytes -/

open HelloMessage (counted)

theorem reaches_counted_iff {width : Nat} {b : Bytes} :
    c.Reaches (counted width b) c' ↔
      ∃ m, c.Reaches (Bytes.ofNat width b.length) m ∧ m.Reaches b c' :=
  reaches_append_iff

/-- **A byte and as many bytes as it says are counted bytes.** -/
theorem exists_u8_iff_counted {b : Bytes} :
    (∃ (n : UInt8) (m : Cursor), c.Reaches [n] m ∧ b.length = n.toNat ∧ m.Reaches b c') ↔
      b.length < 256 ∧ c.Reaches (counted 1 b) c' := by
  constructor
  · rintro ⟨n, m, hn, hlength, hb⟩
    refine ⟨hlength ▸ n.toNat_lt, reaches_counted_iff.mpr ⟨m, ?_, hb⟩⟩
    rw [hlength, Bytes.ofNat, Bytes.ofNat, List.nil_append, UInt8.ofNat_toNat]
    exact hn
  · rintro ⟨hlt, hreaches⟩
    obtain ⟨m, hn, hb⟩ := reaches_counted_iff.mp hreaches
    exact ⟨UInt8.ofNat b.length, m, hn, (UInt8.toNat_ofNat_of_lt' hlt).symm, hb⟩

/-- **A two-byte number and as many bytes as it says are counted bytes.** -/
theorem exists_u16_iff_counted {b : Bytes} :
    (∃ (n : UInt16) (m : Cursor),
      c.Reaches (Bytes.ofNat 2 n.toNat) m ∧ b.length = n.toNat ∧ m.Reaches b c') ↔
      b.length < 65536 ∧ c.Reaches (counted 2 b) c' := by
  constructor
  · rintro ⟨n, m, hn, hlength, hb⟩
    exact ⟨hlength ▸ n.toNat_lt, reaches_counted_iff.mpr ⟨m, hlength ▸ hn, hb⟩⟩
  · rintro ⟨hlt, hreaches⟩
    obtain ⟨m, hn, hb⟩ := reaches_counted_iff.mp hreaches
    have hlength : (UInt16.ofNat b.length).toNat = b.length := UInt16.toNat_ofNat_of_lt' hlt
    exact ⟨UInt16.ofNat b.length, m, hlength.symm ▸ hn, hlength.symm, hb⟩

end Cursor

end SplitHello

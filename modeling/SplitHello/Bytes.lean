/-!
# Bytes — byte strings and the big-endian numbers in them

A byte string is a list of bytes.  A number of a known width is written most significant byte
first; `ofNat` writes it, `toNat` reads it, and each undoes the other:

* `toNat_ofNat` — reading what was written gives the number back, if it fits the width;
* `ofNat_toNat` — writing what was read gives the bytes back.

Lists of 16-bit codes are runs of two-byte numbers, with the same two laws, `codes_ofCodes` and
`ofCodes_codes`.
-/

namespace SplitHello

/-- A byte string. -/
abbrev Bytes := List UInt8

namespace Bytes

/-! ## Numbers -/

/-- The number whose base-256 digits are the bytes, most significant first. -/
def toNat (b : Bytes) : Nat := b.foldl (fun n byte => n * 256 + byte.toNat) 0

/-- The lowest `width` base-256 digits of a number, most significant first. -/
def ofNat : (width n : Nat) → Bytes
  | 0, _ => []
  | width + 1, n => ofNat width (n / 256) ++ [UInt8.ofNat n]

/-- How many numbers fit so many bytes. -/
def capacity : (width : Nat) → Nat
  | 0 => 1
  | width + 1 => 256 * capacity width

@[simp] theorem length_ofNat : ∀ width n, (ofNat width n).length = width
  | 0, _ => rfl
  | width + 1, n => by simp [ofNat, length_ofNat width]

@[simp] theorem toNat_nil : toNat [] = 0 := rfl

@[simp] theorem toNat_append_singleton (b : Bytes) (byte : UInt8) :
    toNat (b ++ [byte]) = toNat b * 256 + byte.toNat := by
  simp [toNat]

/-- **Reading what was written gives the number back**, up to what the width can hold. -/
theorem toNat_ofNat : ∀ width n, toNat (ofNat width n) = n % capacity width
  | 0, n => (Nat.mod_one n).symm
  | width + 1, n => by
      rw [ofNat, toNat_append_singleton, toNat_ofNat width, capacity, Nat.mod_mul,
        UInt8.toNat_ofNat']
      omega

theorem toNat_ofNat_of_lt {width n : Nat} (h : n < capacity width) :
    toNat (ofNat width n) = n := by
  rw [toNat_ofNat, Nat.mod_eq_of_lt h]

/-- The number in `b` is one that fits as many bytes. -/
theorem toNat_lt (b : Bytes) : toNat b < capacity b.length := by
  obtain ⟨r, rfl⟩ : ∃ r : Bytes, b = r.reverse := ⟨b.reverse, by simp⟩
  induction r with
  | nil => exact Nat.one_pos
  | cons byte r ih =>
      have := byte.toNat_lt
      rw [List.reverse_cons, toNat_append_singleton, List.length_append, List.length_singleton,
        capacity]
      omega

/-- **Writing what was read gives the bytes back.** -/
theorem ofNat_toNat (b : Bytes) : ofNat b.length (toNat b) = b := by
  obtain ⟨r, rfl⟩ : ∃ r : Bytes, b = r.reverse := ⟨b.reverse, by simp⟩
  induction r with
  | nil => rfl
  | cons byte r ih =>
      have hb := byte.toNat_lt
      have hdiv : (toNat r.reverse * 256 + byte.toNat) / 256 = toNat r.reverse := by omega
      have hmod : UInt8.ofNat (toNat r.reverse * 256 + byte.toNat) = byte :=
        UInt8.toNat_inj.mp (by rw [UInt8.toNat_ofNat']; omega)
      rw [List.reverse_cons, toNat_append_singleton, List.length_append, List.length_singleton,
        ofNat, hdiv, hmod, ih]

/-! ## Codes -/

/-- The 16-bit codes in a byte string, two bytes each; an odd last byte is dropped. -/
def codes : Bytes → List UInt16
  | high :: low :: rest => UInt16.ofNat (toNat [high, low]) :: codes rest
  | _ => []

/-- Codes as bytes, two each. -/
def ofCodes (list : List UInt16) : Bytes := list.flatMap fun code => ofNat 2 code.toNat

@[simp] theorem ofCodes_nil : ofCodes [] = [] := rfl

@[simp] theorem ofCodes_cons (code : UInt16) (list : List UInt16) :
    ofCodes (code :: list) = ofNat 2 code.toNat ++ ofCodes list := rfl

@[simp] theorem length_ofCodes : ∀ list, (ofCodes list).length = 2 * list.length
  | [] => rfl
  | code :: list => by simp [length_ofCodes list]; omega

/-- **Reading codes that were written gives them back.** -/
theorem codes_ofCodes : ∀ list, codes (ofCodes list) = list
  | [] => rfl
  | code :: list => by
      have h : UInt16.ofNat (toNat (ofNat 2 code.toNat)) = code := by
        rw [toNat_ofNat_of_lt code.toNat_lt, UInt16.ofNat_toNat]
      simp only [ofNat, List.nil_append, List.cons_append] at h
      simp only [ofCodes_cons, ofNat, List.nil_append, List.cons_append, codes, h,
        codes_ofCodes list]

/-- **Writing codes that were read gives the bytes back**, if no byte was odd. -/
theorem ofCodes_codes : ∀ b : Bytes, b.length % 2 = 0 → ofCodes (codes b) = b
  | [], _ => rfl
  | [_], h => by simp at h
  | high :: low :: rest, h => by
      have hlt : toNat [high, low] < capacity 2 := toNat_lt [high, low]
      have hpair : ofNat 2 (toNat [high, low]) = [high, low] := ofNat_toNat [high, low]
      rw [codes, ofCodes_cons, UInt16.toNat_ofNat_of_lt' hlt, hpair,
        ofCodes_codes rest (by simp only [List.length_cons] at h; omega)]
      rfl

end Bytes

end SplitHello

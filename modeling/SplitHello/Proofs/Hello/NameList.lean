import SplitHello.Proofs.Hello.ServerName

/-!
# Proofs/Hello/NameList — scanning a list of server names

An `Entry` is a name with a length that fits, so a list of entries is a list of names that can be
written.  Scanning passes over the entries that are no host names, as many as are counted, and
comes to one of three ends: a host name, the end of the count, or bytes that are no whole entry.

* `exists_firstHostName_append` — entries that are no host names are passed over, one count each;
* `hostName_eq_none_iff`, `exists_error_hostName_iff` — when nothing is found, and when scanning
  fails;
* `hostName_scanned` — the whole, and with it that a list whose count is its length in bytes still
  gives its first host name.
-/

namespace SplitHello.ServerName

open HelloMessage (counted)

/-- An entry of a list of server names. -/
structure Entry where
  /-- What kind of name it is. -/
  type : UInt8
  /-- The name. -/
  name : Bytes
  /-- The length of the name fits two bytes. -/
  fits : name.length < 65536

/-- The bytes of an entry. -/
def Entry.encode (x : Entry) : Bytes := x.type :: counted 2 x.name

/-- The bytes of a list of entries. -/
def encodeAll (entries : List Entry) : Bytes := entries.flatMap Entry.encode

@[simp] theorem encodeAll_nil : encodeAll [] = [] := rfl

@[simp] theorem encodeAll_cons (x : Entry) (later : List Entry) :
    encodeAll (x :: later) = x.encode ++ encodeAll later := rfl

@[simp] theorem encodeAll_append (first second : List Entry) :
    encodeAll (first ++ second) = encodeAll first ++ encodeAll second := List.flatMap_append

/-- No entry takes less than a byte. -/
theorem Entry.length_encode_pos (x : Entry) : 0 < x.encode.length := Nat.succ_pos _

/-- There are no more entries than bytes. -/
theorem length_le_length_encodeAll (entries : List Entry) :
    entries.length ≤ (encodeAll entries).length := by
  induction entries with
  | nil => exact Nat.le_refl 0
  | cons x later ih =>
      have hpos := x.length_encode_pos
      rw [encodeAll_cons, List.length_append, List.length_cons]
      omega

/-! ## Scanning -/

variable {c : Cursor} {body rest : Bytes} {entries others : List Entry}

/-- An entry that stands at the front is read. -/
theorem Entry.exists_entry (x : Entry) (h : c.rest = x.encode ++ rest) :
    ∃ m, entry c = .ok ((x.type, x.name), m) ∧ m.rest = rest :=
  ServerName.exists_entry x.fits h

/-- What is read as an entry is one. -/
theorem exists_encode_of_entry {found : (UInt8 × Bytes) × Cursor} (h : entry c = .ok found) :
    ∃ (x : Entry) (m : Cursor), found = ((x.type, x.name), m) ∧ c.rest = x.encode ++ m.rest := by
  obtain ⟨⟨type, name⟩, m⟩ := found
  obtain ⟨hfits, hrest, -⟩ := entry_eq_ok_iff.mp h
  exact ⟨⟨type, name, hfits⟩, m, rfl, hrest⟩

/-- **Entries that are no host names are passed over**, and each takes one off the count. -/
theorem exists_firstHostName_append (hothers : ∀ x ∈ others, x.type ≠ hostNameType) (count : Nat)
    (hrest : c.rest = encodeAll others ++ rest) :
    ∃ m, m.rest = rest ∧ firstHostName (others.length + count) c = firstHostName count m := by
  induction others generalizing c with
  | nil => exact ⟨c, hrest, by rw [List.length_nil, Nat.zero_add]⟩
  | cons x later ih =>
      rw [encodeAll_cons, List.append_assoc] at hrest
      obtain ⟨hx, hlater⟩ := List.forall_mem_cons.mp hothers
      obtain ⟨next, hentry, hnext⟩ := x.exists_entry hrest
      obtain ⟨m, hm, hscan⟩ := ih hlater hnext
      refine ⟨m, hm, ?_⟩
      rw [List.length_cons, Nat.succ_add, firstHostName, hentry]
      exact (if_neg hx).trans hscan

/-- A host name that counts is what is found, whatever is behind it. -/
theorem firstHostName_append_host (hothers : ∀ x ∈ others, x.type ≠ hostNameType) {host : Entry}
    (hhost : host.type = hostNameType) {count : Nat} (hcount : others.length < count)
    (hrest : c.rest = encodeAll (others ++ [host]) ++ rest) :
    firstHostName count c = .ok (some host.name) := by
  obtain ⟨more, rfl⟩ : ∃ more, count = others.length + (more + 1) :=
    ⟨count - others.length - 1, by omega⟩
  rw [encodeAll_append, List.append_assoc] at hrest
  obtain ⟨m, hm, hscan⟩ := exists_firstHostName_append hothers (more + 1) hrest
  rw [encodeAll_cons, encodeAll_nil, List.append_nil] at hm
  obtain ⟨m', hentry, -⟩ := host.exists_entry hm
  rw [hscan, firstHostName, hentry]
  exact if_pos hhost

/-- Nothing is found among entries that are no host names, if no others count. -/
theorem firstHostName_append_others (hothers : ∀ x ∈ others, x.type ≠ hostNameType) {count : Nat}
    (hcount : count ≤ others.length) (hrest : c.rest = encodeAll others ++ rest) :
    firstHostName count c = .ok none := by
  have hsplit : c.rest =
      encodeAll (others.take count) ++ (encodeAll (others.drop count) ++ rest) := by
    rw [hrest, ← List.append_assoc, ← encodeAll_append, List.take_append_drop]
  have hcounted : (others.take count).length = count := List.length_take_of_le hcount
  obtain ⟨m, -, hscan⟩ :=
    exists_firstHostName_append (fun x hx => hothers x (List.mem_of_mem_take hx)) 0 hsplit
  rw [Nat.add_zero, hcounted] at hscan
  exact hscan

/-- If nothing is found, as many entries as count are there, and none is a host name. -/
theorem exists_entries_of_firstHostName {count : Nat} (h : firstHostName count c = .ok none) :
    ∃ entries rest, c.rest = encodeAll entries ++ rest ∧ entries.length = count ∧
      ∀ x ∈ entries, x.type ≠ hostNameType := by
  induction count generalizing c with
  | zero => exact ⟨[], c.rest, rfl, rfl, fun x hx => absurd hx List.not_mem_nil⟩
  | succ count ih =>
      rw [firstHostName] at h
      obtain ⟨found, hentry, hlater⟩ := bind_eq_ok_iff.mp h
      obtain ⟨x, m, rfl, hrest⟩ := exists_encode_of_entry hentry
      dsimp only at hlater
      split at hlater
      · cases hlater
      · next hother =>
        obtain ⟨entries, rest, hentries, hlength, hall⟩ := ih hlater
        refine ⟨x :: entries, rest, ?_, congrArg Nat.succ hlength,
          List.forall_mem_cons.mpr ⟨hother, hall⟩⟩
        rw [hrest, hentries, encodeAll_cons, List.append_assoc]

/-- If scanning fails, it is at an entry that counts and is not whole, behind entries that are no
host names. -/
theorem exists_entries_of_error {count : Nat} {e : ParseError}
    (h : firstHostName count c = .error e) : ∃ entries rest,
      c.rest = encodeAll entries ++ rest ∧ entries.length < count ∧
      (∀ x ∈ entries, x.type ≠ hostNameType) ∧ ∀ x : Entry, ¬ x.encode <+: rest := by
  induction count generalizing c with
  | zero => cases h
  | succ count ih =>
      rw [firstHostName] at h
      cases hentry : entry c with
      | error e' =>
          refine ⟨[], c.rest, rfl, Nat.succ_pos count, fun x hx => absurd hx List.not_mem_nil, ?_⟩
          rintro x ⟨behind, hx⟩
          obtain ⟨m, hread, -⟩ := x.exists_entry hx.symm
          cases hentry.symm.trans hread
      | ok found =>
          obtain ⟨x, m, rfl, hrest⟩ := exists_encode_of_entry hentry
          rw [hentry] at h
          simp only [bind, Except.bind] at h
          split at h
          · cases h
          · next hother =>
            obtain ⟨entries, rest, hentries, hlength, hall, hpart⟩ := ih h
            refine ⟨x :: entries, rest, ?_, Nat.succ_lt_succ hlength,
              List.forall_mem_cons.mpr ⟨hother, hall⟩, hpart⟩
            rw [hrest, hentries, encodeAll_cons, List.append_assoc]

/-- Scanning fails at an entry that counts and is not whole. -/
theorem exists_error_of_entries {count : Nat} (hrest : c.rest = encodeAll entries ++ rest)
    (hlength : entries.length < count) (hall : ∀ x ∈ entries, x.type ≠ hostNameType)
    (hpart : ∀ x : Entry, ¬ x.encode <+: rest) : ∃ e, firstHostName count c = .error e := by
  obtain ⟨more, rfl⟩ : ∃ more, count = entries.length + (more + 1) :=
    ⟨count - entries.length - 1, by omega⟩
  obtain ⟨m, hm, hscan⟩ := exists_firstHostName_append hall (more + 1) hrest
  rw [hscan, firstHostName]
  cases hentry : entry m with
  | error e => exact ⟨e, rfl⟩
  | ok found =>
      obtain ⟨x, m', -, hx⟩ := exists_encode_of_entry hentry
      exact absurd ⟨m'.rest, hx.symm.trans hm⟩ (hpart x)

/-! ## The body of an extension -/

/-- A body with a count is scanned from behind it. -/
theorem exists_hostName_append (count : UInt16) (list : Bytes) :
    ∃ m : Cursor, m.rest = list ∧
      hostName (Bytes.ofNat 2 count.toNat ++ list) = firstHostName count.toNat m := by
  have hread : (Cursor.start (Bytes.ofNat 2 count.toNat ++ list)).u16 "SNI entry count" =
      .ok (count, ⟨0 + (Bytes.ofNat 2 count.toNat).length, list⟩) :=
    Cursor.u16_eq_ok_iff.mpr ⟨rfl, rfl⟩
  exact ⟨_, rfl, by rw [hostName, hread]; rfl⟩

/-- A body is too short for a count and fails, or is scanned from behind its count. -/
theorem hostName_cases (body : Bytes) :
    (body.length < 2 ∧ ∃ e, hostName body = .error e) ∨
      ∃ (count : UInt16) (m : Cursor), body = Bytes.ofNat 2 count.toNat ++ m.rest ∧
        hostName body = firstHostName count.toNat m := by
  cases hread : (Cursor.start body).u16 "SNI entry count" with
  | ok found =>
      obtain ⟨count, m⟩ := found
      exact .inr ⟨count, m, (Cursor.u16_eq_ok_iff.mp hread).1, by rw [hostName, hread]; rfl⟩
  | error e =>
      refine .inl ⟨?_, e, by rw [hostName, hread]; rfl⟩
      cases htake : (Cursor.start body).take 2 "SNI entry count" with
      | error e' => exact (Cursor.take_eq_error_iff.mp htake).1
      | ok found =>
          rw [Cursor.u16, Cursor.number, htake] at hread
          cases hread

/-- **Nothing is found exactly if as many entries as are counted are there**, and none of them is a
host name. -/
theorem hostName_eq_none_iff :
    hostName body = .ok none ↔ ∃ (count : UInt16) (entries : List Entry) (rest : Bytes),
      body = Bytes.ofNat 2 count.toNat ++ encodeAll entries ++ rest ∧
      entries.length = count.toNat ∧ ∀ x ∈ entries, x.type ≠ hostNameType := by
  constructor
  · intro h
    obtain ⟨-, e, he⟩ | ⟨count, m, rfl, hscan⟩ := hostName_cases body
    · cases h.symm.trans he
    · obtain ⟨entries, rest, hrest, hlength, hall⟩ :=
        exists_entries_of_firstHostName (hscan.symm.trans h)
      exact ⟨count, entries, rest, by rw [hrest, List.append_assoc], hlength, hall⟩
  · rintro ⟨count, entries, rest, rfl, hlength, hall⟩
    rw [List.append_assoc]
    obtain ⟨m, hm, hscan⟩ := exists_hostName_append count (encodeAll entries ++ rest)
    rw [hscan]
    exact firstHostName_append_others hall (Nat.le_of_eq hlength.symm) hm

/-- **Scanning a body fails exactly if it has no count, or at an entry that counts and is not
whole**, behind entries that are no host names. -/
theorem exists_error_hostName_iff :
    (∃ e, hostName body = .error e) ↔ body.length < 2 ∨
      ∃ (count : UInt16) (entries : List Entry) (rest : Bytes),
        body = Bytes.ofNat 2 count.toNat ++ encodeAll entries ++ rest ∧
        entries.length < count.toNat ∧ (∀ x ∈ entries, x.type ≠ hostNameType) ∧
        ∀ x : Entry, ¬ x.encode <+: rest := by
  constructor
  · rintro ⟨e, h⟩
    obtain ⟨hshort, -⟩ | ⟨count, m, rfl, hscan⟩ := hostName_cases body
    · exact .inl hshort
    · obtain ⟨entries, rest, hrest, hlength, hall, hpart⟩ :=
        exists_entries_of_error (hscan.symm.trans h)
      exact .inr ⟨count, entries, rest, by rw [hrest, List.append_assoc], hlength, hall, hpart⟩
  · rintro (hshort | ⟨count, entries, rest, rfl, hlength, hall, hpart⟩)
    · obtain ⟨-, herror⟩ | ⟨count, m, rfl, -⟩ := hostName_cases body
      · exact herror
      · rw [List.length_append, Bytes.length_ofNat] at hshort
        omega
    · rw [List.append_assoc]
      obtain ⟨m, hm, hscan⟩ := exists_hostName_append count (encodeAll entries ++ rest)
      rw [hscan]
      exact exists_error_of_entries hm hlength hall hpart

/-- The first host name of a list is found if it counts. -/
theorem hostName_append_host (count : UInt16) (hothers : ∀ x ∈ others, x.type ≠ hostNameType)
    {host : Entry} (hhost : host.type = hostNameType) (rest : Bytes) :
    hostName (Bytes.ofNat 2 count.toNat ++ encodeAll (others ++ [host]) ++ rest) =
      .ok (if others.length + 1 ≤ count.toNat then some host.name else none) := by
  rw [List.append_assoc]
  obtain ⟨m, hm, hscan⟩ := exists_hostName_append count (encodeAll (others ++ [host]) ++ rest)
  rw [hscan]
  split
  · next hcount => exact firstHostName_append_host hothers hhost hcount hm
  · next hcount =>
    rw [encodeAll_append, List.append_assoc] at hm
    exact firstHostName_append_others hothers (by omega) hm

/-- **A list that is counted in bytes gives its first host name**: it has more bytes than entries,
so the host name counts. -/
theorem hostName_counted {list : List Entry} {host : Entry}
    (hfind : list.find? (·.type = hostNameType) = some host)
    (hfits : (encodeAll list).length < 65536) (rest : Bytes) :
    hostName (counted 2 (encodeAll list) ++ rest) = .ok (some host.name) := by
  obtain ⟨hhost, others, later, rfl, hothers⟩ := List.find?_eq_some_iff_append.mp hfind
  have hcount := length_le_length_encodeAll (others ++ host :: later)
  rw [List.length_append, List.length_cons] at hcount
  generalize hlength : (encodeAll (others ++ host :: later)).length = length at hfits hcount
  have hsplit : counted 2 (encodeAll (others ++ host :: later)) ++ rest =
      Bytes.ofNat 2 (UInt16.ofNat length).toNat ++ encodeAll (others ++ [host]) ++
        (encodeAll later ++ rest) := by
    rw [counted, hlength, UInt16.toNat_ofNat_of_lt' hfits]
    simp only [encodeAll_append, encodeAll_cons, encodeAll_nil, List.append_nil, List.append_assoc]
  have hplain : ∀ x ∈ others, x.type ≠ hostNameType := fun x hx => by simpa using hothers x hx
  rw [hsplit, hostName_append_host _ hplain (of_decide_eq_true hhost), if_pos]
  rw [UInt16.toNat_ofNat_of_lt' hfits]
  omega

/-- **Scanning a list of server names.**  Where the first host name is the `k`-th entry, it is found
if at least `k` entries count, whatever is behind it, and nothing is found if fewer do.  Nothing is
found in a body exactly if all entries that count are whole and none is a host name; scanning fails
exactly if the count is missing, or if an entry that counts is not whole and all those ahead of it
are and are no host names.  A list whose count is its length in bytes gives its first host name. -/
theorem hostName_scanned :
    (∀ (count : UInt16) (others : List Entry) (host : Entry) (rest : Bytes),
      (∀ x ∈ others, x.type ≠ hostNameType) → host.type = hostNameType →
      hostName (Bytes.ofNat 2 count.toNat ++ encodeAll (others ++ [host]) ++ rest) =
        .ok (if (others ++ [host]).length ≤ count.toNat then some host.name else none)) ∧
    (∀ body : Bytes, hostName body = .ok none ↔
      ∃ (count : UInt16) (entries : List Entry) (rest : Bytes),
        body = Bytes.ofNat 2 count.toNat ++ encodeAll entries ++ rest ∧
        entries.length = count.toNat ∧ ∀ x ∈ entries, x.type ≠ hostNameType) ∧
    (∀ body : Bytes, (∃ e, hostName body = .error e) ↔ body.length < 2 ∨
      ∃ (count : UInt16) (entries : List Entry) (rest : Bytes),
        body = Bytes.ofNat 2 count.toNat ++ encodeAll entries ++ rest ∧
        entries.length < count.toNat ∧ (∀ x ∈ entries, x.type ≠ hostNameType) ∧
        ∀ x : Entry, ¬ x.encode <+: rest) ∧
    (∀ (list : List Entry) (host : Entry) (rest : Bytes),
      list.find? (·.type = hostNameType) = some host → (encodeAll list).length < 65536 →
      hostName (counted 2 (encodeAll list) ++ rest) = .ok (some host.name)) := by
  refine ⟨fun count others host rest hothers hhost => ?_, fun body => hostName_eq_none_iff,
    fun body => exists_error_hostName_iff, fun list host rest hfind hfits => ?_⟩
  · rw [List.length_append, List.length_singleton]
    exact hostName_append_host count hothers hhost rest
  · exact hostName_counted hfind hfits rest

/-- A list of a name of another type and a host name. -/
def sampleNames : List Entry := [⟨1, [120, 121], by decide⟩, ⟨0, [104], by decide⟩]

/-- The host name of the list is found if three entries count, whatever is behind it, and not if one
counts; and it is found if the bytes of the list are counted. -/
theorem hostName_scanned_sample :
    hostName [0, 3, 1, 0, 2, 120, 121, 0, 0, 1, 104, 255] = .ok (some [104]) ∧
      hostName [0, 1, 1, 0, 2, 120, 121, 0, 0, 1, 104, 255] = .ok none ∧
      hostName [0, 9, 1, 0, 2, 120, 121, 0, 0, 1, 104] = .ok (some [104]) := by
  obtain ⟨hhost, -, -, hcounted⟩ := hostName_scanned
  have hother : ∀ x ∈ sampleNames.take 1, x.type ≠ hostNameType := by decide
  have hlist : encodeAll sampleNames = [1, 0, 2, 120, 121, 0, 0, 1, 104] := by decide
  refine ⟨?_, ?_, ?_⟩
  · have hfound := hhost 3 (sampleNames.take 1) ⟨0, [104], by decide⟩ [255] hother rfl
    rwa [if_pos (by decide)] at hfound
  · have hfound := hhost 1 (sampleNames.take 1) ⟨0, [104], by decide⟩ [255] hother rfl
    rwa [if_neg (by decide)] at hfound
  · have hfound := hcounted sampleNames ⟨0, [104], by decide⟩ [] rfl (by decide)
    rwa [hlist] at hfound

end SplitHello.ServerName

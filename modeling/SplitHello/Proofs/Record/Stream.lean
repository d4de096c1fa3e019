import SplitHello.Proofs.Record.FlatReader

/-!
# Proofs/Record/Stream — which records a stream starts with

A header says where its record ends, so bytes can be cut into records in one way only.  Behind the
records stands what is no record: bytes that end inside one, or a header that is refused.

* `Record.exists_append_of_stream` — of two rows of records at the front of the same bytes, one
  starts with the other;
* `Record.EndsInside` — bytes that end inside a record, and how many it takes at least;
* `Record.EndsInside.exists_append` — bytes that end inside a record hold the records ahead of it
  and no others.
-/

namespace SplitHello.Record

variable {records others : List Record} {held rest other : Bytes} {need : Nat}

/-- **Of two rows of records at the front of the same bytes, one starts with the other.** -/
theorem exists_append_of_stream (hrecords : ∀ record ∈ records, record.Admissible)
    (hothers : ∀ record ∈ others, record.Admissible)
    (h : stream records ++ rest = stream others ++ other) :
    (∃ more, others = records ++ more ∧ rest = stream more ++ other) ∨
      ∃ more, records = others ++ more ∧ other = stream more ++ rest := by
  induction records generalizing others with
  | nil => exact .inl ⟨others, rfl, h⟩
  | cons record later ih =>
      obtain _ | ⟨record', later'⟩ := others
      · exact .inr ⟨record :: later, rfl, h.symm⟩
      · obtain ⟨hrecord, hlater⟩ := List.forall_mem_cons.mp hrecords
        obtain ⟨hrecord', hlater'⟩ := List.forall_mem_cons.mp hothers
        rw [stream_cons, stream_cons, List.append_assoc, List.append_assoc] at h
        have hfront := front_encode hrecord (stream later ++ rest)
        rw [h, front_encode hrecord'] at hfront
        obtain ⟨rfl, htail⟩ := Prod.mk.inj (Except.ok.inj hfront)
        refine (ih hlater hlater' htail.symm).imp ?_ ?_
        · rintro ⟨more, rfl, hrest⟩
          exact ⟨more, rfl, hrest⟩
        · rintro ⟨more, rfl, hother⟩
          exact ⟨more, rfl, hother⟩

/-! ## Bytes that end inside a record -/

/-- A header that is accepted is all there. -/
theorem size_le_of_parse {header : RecordHeader} (h : RecordHeader.parse held = .ok header) :
    RecordHeader.size ≤ held.length := by
  obtain ⟨-, -, hheld⟩ := RecordHeader.eq_encode_of_parse h
  rw [hheld, List.length_append]
  exact Nat.le_add_right RecordHeader.size _

/-- Bytes end inside a record, which takes at least `need` bytes. -/
inductive EndsInside (held : Bytes) : (need : Nat) → Prop
  /-- They end inside the header. -/
  | header (h : held.length < RecordHeader.size) : EndsInside held RecordHeader.size
  /-- They end behind a header that is accepted. -/
  | payload {header : RecordHeader} (hparse : RecordHeader.parse held = .ok header)
      (h : held.length < header.totalLength) : EndsInside held header.totalLength

theorem EndsInside.length_lt (h : EndsInside held need) : held.length < need := by
  obtain h | ⟨-, h⟩ := h
  · exact h
  · exact h

/-- **Bytes end inside a record exactly if they are too few for the one at their front.** -/
theorem front_eq_truncated_iff {failure : Failure} :
    front held = .error (.truncatedStream need failure) ↔
      EndsInside held need ∧ failure = .io .sourceEnded := by
  constructor
  · intro h
    rw [front] at h
    split at h
    · next hsize =>
      obtain ⟨rfl, rfl⟩ := ReadError.truncatedStream.inj (Except.error.inj h)
      exact ⟨.header hsize, rfl⟩
    · split at h
      · cases h
      · next header hparse =>
        split at h
        · next htotal =>
          obtain ⟨rfl, rfl⟩ := ReadError.truncatedStream.inj (Except.error.inj h)
          exact ⟨.payload hparse htotal, rfl⟩
        · cases h
  · rintro ⟨hsize | ⟨hparse, htotal⟩, rfl⟩
    · exact front_of_length_lt hsize
    · exact front_of_lt_totalLength (size_le_of_parse hparse) hparse htotal

/-- Bytes that end inside a record start with none. -/
theorem EndsInside.eq_nil_of_stream (h : EndsInside held need)
    (hrecords : ∀ record ∈ records, record.Admissible) (hheld : held = stream records ++ rest) :
    records = [] := by
  obtain _ | ⟨record, later⟩ := records
  · rfl
  · have hfront := front_eq_truncated_iff.mpr ⟨h, rfl⟩
    rw [hheld, stream_cons, List.append_assoc,
      front_encode (List.forall_mem_cons.mp hrecords).1] at hfront
    cases hfront

/-- No header is refused at the front of records with bytes behind them that end inside one. -/
theorem EndsInside.front_ne_notTls (h : EndsInside held need)
    (hrecords : ∀ record ∈ records, record.Admissible) (e : ParseError) :
    front (stream records ++ held) ≠ .error (.notTls e) := by
  intro hfront
  obtain _ | ⟨record, later⟩ := records
  · cases (front_eq_truncated_iff.mpr ⟨h, rfl⟩).symm.trans hfront
  · rw [stream_cons, List.append_assoc,
      front_encode (List.forall_mem_cons.mp hrecords).1] at hfront
    cases hfront

/-- **Bytes that end inside a record hold the records ahead of it and no others**, and no header
that is refused stands behind any of them. -/
theorem EndsInside.exists_append (h : EndsInside held need)
    (hrecords : ∀ record ∈ records, record.Admissible)
    (hothers : ∀ record ∈ others, record.Admissible)
    (hfront : stream others ++ rest <+: stream records ++ held) :
    (∃ more, records = others ++ more) ∧ ∀ e, front rest ≠ .error (.notTls e) := by
  obtain ⟨behind, hbehind⟩ := hfront
  rw [List.append_assoc] at hbehind
  obtain ⟨more, rfl, hrest⟩ : ∃ more, records = others ++ more ∧
      rest ++ behind = stream more ++ held := by
    rcases exists_append_of_stream hothers hrecords hbehind with hmore | ⟨more, rfl, hheld⟩
    · exact hmore
    · obtain rfl := h.eq_nil_of_stream (List.forall_mem_append.mp hothers).2 hheld
      exact ⟨[], by rw [List.append_nil, List.append_nil], hheld.symm⟩
  refine ⟨⟨more, rfl⟩, fun e hrefused => ?_⟩
  -- what is refused stays refused with anything behind it
  have hstays := front_eq_notTls hrefused (rest.drop RecordHeader.size ++ behind)
  rw [← List.append_assoc, List.take_append_drop, hrest] at hstays
  exact h.front_ne_notTls (List.forall_mem_append.mp hrecords).2 e hstays

end SplitHello.Record

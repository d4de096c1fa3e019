import SplitHello.Proofs.Journal.Reads
import SplitHello.Proofs.Record.Reading

/-!
# Proofs/Record/Payloads — which payloads a call takes in

A record that is taken in leaves a note, which says how much is buffered then and how much is
pending.  So the notes of a call tell how many records it took in, and how much was held after each.

* `payloads_readRecord` — reading a record takes one in, or fails and takes none;
* `payloads_takeMessage` — decoding a message takes none in.
-/

namespace SplitHello

namespace Journal

variable {journal later : Journal}

/-- How many bytes were buffered and how many were pending once each payload was taken in. -/
def payloads (journal : Journal) : List (Nat × Nat) :=
  journal.filterMap fun
    | .note (.appendedPayload buffered pending) => some (buffered, pending)
    | _ => none

@[simp] theorem payloads_append (first second : Journal) :
    payloads (first ++ second) = payloads first ++ payloads second :=
  List.filterMap_append

/-- A note that no payload was taken in with takes none in. -/
theorem payloads_readHeader {contentType : UInt8} {version payloadLength : UInt16} :
    payloads (.note (.readHeader contentType version payloadLength) :: later) = payloads later :=
  rfl

theorem payloads_messageContinues {missing : Nat} :
    payloads (.note (.messageContinues missing) :: later) = payloads later := rfl

/-- Where nothing is done but asking, no payload is taken in. -/
theorem payloads_eq_nil (h : ∀ e ∈ journal, ∃ asked got, e = .read asked got) :
    payloads journal = [] := by
  refine List.filterMap_eq_nil_iff.mpr fun e he => ?_
  obtain ⟨asked, got, rfl⟩ := h e he
  rfl

end Journal

theorem Buffer.payloads_fillTo (buffer : Buffer) (source : Source) (n : Nat) :
    (buffer.fillTo source n).journal.payloads = [] := by
  refine Journal.payloads_eq_nil fun e he => ?_
  obtain ⟨asked, got, he, -⟩ := exists_read_of_mem_fillTo he
  exact ⟨asked, got, he⟩

/-- What is noted on decoding a message is on its extensions and on the hello. -/
theorem ClientHello.mem_parseNotes {data : Bytes} {n : Note} (h : n ∈ parseNotes data) :
    (∃ type length, n = .decodedExtension type length) ∨
      ∃ version suites name ticket, n = .parsedHello version suites name ticket := by
  have hentries : ∀ entries : List Extension, n ∈ Extension.notes entries →
      ∃ type length, n = .decodedExtension type length := by
    intro entries hn
    induction entries with
    | nil => exact absurd hn List.not_mem_nil
    | cons x later ih =>
      rw [Extension.notes] at hn
      split at hn
      · exact ih hn
      · exact (List.mem_cons.mp hn).elim (fun h => ⟨_, _, h⟩) ih
      · exact absurd hn List.not_mem_nil
  rw [parseNotes] at h
  split at h
  · exact absurd h List.not_mem_nil
  · refine (List.mem_append.mp h).imp (hentries _) fun hn => ?_
    cases hparsed : (parse data).toOption with
    | none =>
        rw [hparsed] at hn
        exact absurd hn List.not_mem_nil
    | some hello =>
        rw [hparsed] at hn
        exact ⟨_, _, _, _, List.mem_singleton.mp hn⟩

namespace Reassembly

/-- **Reading a record takes it in**, or fails and takes none in. -/
theorem payloads_readRecord (r : Reassembly) (source : Source) :
    (r.readRecord source).journal.payloads = match (r.readRecord source).result with
      | .ok _ => [((r.readRecord source).state.1.buffered.length,
          (r.readRecord source).state.1.pendingBytes.length)]
      | .error _ => [] := by
  have hread := r.recordRead_readRecord source
  have hfill : ∀ {buffer filled : Buffer} {source after : Source} {n : Nat}
      {failed : Option Failure} {journal : Journal},
      buffer.fillTo source n = ⟨failed, (filled, after), journal⟩ → journal.payloads = [] := by
    intro buffer filled source after n failed journal h
    rw [← buffer.payloads_fillTo source n, h]
  generalize r.readRecord source = reply at hread ⊢
  cases hread with
  | noHeader h => exact hfill h
  | refused h _ => exact hfill h
  | noPayload h _ hmore =>
      rw [Journal.payloads_append, hfill h, Journal.payloads_readHeader, hfill hmore]
      rfl
  | taken h _ hmore =>
      rw [Reply.journal_after, Journal.payloads_append, Journal.payloads_append, hfill h,
        Journal.payloads_readHeader, hfill hmore]
      rfl

/-- Decoding a message takes no record in. -/
theorem payloads_takeMessage (r : Reassembly) (source : Source) (type : UInt8) (length : Nat) :
    (r.takeMessage source type length).journal.payloads = [] := by
  rw [takeMessage]
  split
  · rfl
  · refine List.filterMap_eq_nil_iff.mpr fun e he => ?_
    obtain ⟨n, hn, rfl⟩ := List.mem_map.mp he
    obtain ⟨type, length, rfl⟩ | ⟨version, suites, name, ticket, rfl⟩ :=
      ClientHello.mem_parseNotes hn
    · rfl
    · rfl

end Reassembly

end SplitHello

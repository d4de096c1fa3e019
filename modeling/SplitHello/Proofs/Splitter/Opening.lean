import SplitHello.Command.Report
import SplitHello.Proofs.Record.Payloads
import SplitHello.Proofs.Zones
import SplitHello.Splitter

/-!
# Proofs/Splitter/Opening — which first writes are cut up

A write can be cut up exactly if a client hello can be read off it that names a host, and the name
stands in the bytes in one piece.  Looking at a first write makes remarks, but none on a fragment.

* `opening_eq_some_iff` — the zones of a first write are those around the host name of its hello;
* `opening_eq_none_iff` — there are none exactly if the write cannot be cut up;
* `begun_opening` — the remarks made on the way begin no fragment.
-/

namespace SplitHello

/-- Bytes that a first write cuts up: a client hello can be read off them, it names a host, and the
name stands in them in one piece. -/
def Cuttable (bytes : Bytes) : Prop :=
  ∃ hello name, (readHello (.ofBytes bytes)).result = .ok hello ∧ hello.sni = some name ∧
    name ≠ [] ∧ name <:+: bytes

namespace Splitter

/-- **The zones of a first write are those around the host name of its hello.** -/
theorem opening_eq_some_iff {bytes : Bytes} {zones : Zones} :
    (opening bytes).1 = some zones ↔
      ∃ hello name, (readHello (.ofBytes bytes)).result = .ok hello ∧ hello.sni = some name ∧
        Zones.around bytes name = some zones := by
  rw [opening]
  cases hr : (readHello (.ofBytes bytes)).result with
  | error e => exact ⟨fun h => (nomatch h), fun ⟨_, _, h, _⟩ => (nomatch h)⟩
  | ok hello =>
      dsimp only
      constructor
      · intro h
        split at h
        · cases h
        · next found hfound =>
          obtain rfl := Option.some.inj h
          obtain ⟨name, hname, hz⟩ := Option.bind_eq_some_iff.mp hfound
          exact ⟨hello, name, rfl, hname, hz⟩
      · rintro ⟨_, name, hok, hname, hz⟩
        obtain rfl := Except.ok.inj hok
        rw [hname, Option.bind_some, hz]

/-- **There are no zones exactly if the write cannot be cut up.** -/
theorem opening_eq_none_iff {bytes : Bytes} : (opening bytes).1 = none ↔ ¬ Cuttable bytes := by
  constructor
  · rintro hnone ⟨hello, name, hr, hname, hne, hinfix⟩
    cases hz : Zones.around bytes name with
    | none => exact (around_eq_none_iff.mp hz).elim hne fun h => h hinfix
    | some zones =>
        have hsome := opening_eq_some_iff.mpr ⟨hello, name, hr, hname, hz⟩
        rw [hnone] at hsome
        cases hsome
  · intro h
    refine Option.eq_none_iff_forall_ne_some.mpr fun zones hzones => h ?_
    obtain ⟨hello, name, hr, hname, hz⟩ := opening_eq_some_iff.mp hzones
    obtain ⟨hne, -, happend, -⟩ := around_eq_some_iff.mp hz
    exact ⟨hello, name, hr, hname, hne, zones.before, zones.after, happend⟩

theorem exists_zones_of_cuttable {bytes : Bytes} (h : Cuttable bytes) :
    ∃ zones, (opening bytes).1 = some zones :=
  Option.ne_none_iff_exists'.mp fun hnone => opening_eq_none_iff.mp hnone h

end Splitter

instance (bytes : Bytes) : Decidable (Cuttable bytes) :=
  decidable_of_iff ((Splitter.opening bytes).1 ≠ none)
    ((not_congr Splitter.opening_eq_none_iff).trans Classical.not_not)

/-- The sample hello in one record. -/
def sampleWrite : Bytes := Record.encode ⟨0x0301, Report.sampleMessage.encode⟩

/-- The sample hello can be cut up if it is sent in one record. -/
theorem cuttable_sampleWrite : Cuttable sampleWrite := by decide +kernel

/-! ## Reading begins no fragment -/

theorem Buffer.begun_fillTo (buffer : Buffer) (source : Source) (n : Nat) :
    (buffer.fillTo source n).journal.begun = [] := by
  refine List.filterMap_eq_nil_iff.mpr fun e he => ?_
  obtain ⟨asked, got, rfl, -⟩ := exists_read_of_mem_fillTo he
  rfl

theorem ClientHello.begun_parseNotes (data : Bytes) :
    Journal.begun ((parseNotes data).map .note) = [] := by
  refine List.filterMap_eq_nil_iff.mpr fun e he => ?_
  obtain ⟨n, hn, rfl⟩ := List.mem_map.mp he
  obtain ⟨type, length, rfl⟩ | ⟨version, suites, name, ticket, rfl⟩ := mem_parseNotes hn
  · rfl
  · rfl

namespace Reassembly

theorem begun_readRecord (r : Reassembly) (source : Source) :
    (r.readRecord source).journal.begun = [] := by
  have hfill : ∀ {buffer filled : Buffer} {source after : Source} {n : Nat}
      {failed : Option Failure} {journal : Journal},
      buffer.fillTo source n = ⟨failed, (filled, after), journal⟩ → journal.begun = [] := by
    intro buffer filled source after n failed journal h
    rw [← buffer.begun_fillTo source n, h]
  have hnote : ∀ {contentType : UInt8} {version payloadLength : UInt16} {later : Journal},
      Journal.begun (.note (.readHeader contentType version payloadLength) :: later) =
        later.begun := rfl
  have hread := r.recordRead_readRecord source
  generalize r.readRecord source = reply at hread ⊢
  cases hread with
  | noHeader h => exact hfill h
  | refused h _ => exact hfill h
  | noPayload h _ hmore =>
      rw [Journal.begun_append, hfill h, hnote, hfill hmore]
      rfl
  | taken h _ hmore =>
      rw [Reply.journal_after, Journal.begun_append, Journal.begun_append, hfill h, hnote,
        hfill hmore]
      rfl

theorem begun_takeMessage (r : Reassembly) (source : Source) (type : UInt8) (length : Nat) :
    (r.takeMessage source type length).journal.begun = [] := by
  rw [takeMessage]
  split
  · rfl
  · exact ClientHello.begun_parseNotes _

/-- No call begins a fragment. -/
theorem keeps_begun : Keeps (fun _ => True) (fun journal => journal.begun = []) where
  nil := rfl
  append hfirst hsecond := by rw [Journal.begun_append, hfirst, hsecond, List.append_nil]
  continues _ := rfl
  readRecord r source _ := ⟨trivial, r.begun_readRecord source⟩
  takeMessage r source type length _ := ⟨trivial, r.begun_takeMessage source type length⟩

theorem begun_readHello (r : Reassembly) (source : Source) :
    (r.readHello source).journal.begun = [] := (keeps_begun.readHello trivial).2

end Reassembly

/-- A journal begins the fragments that its notes begin. -/
theorem Journal.begun_notes (journal : Journal) :
    Journal.begun (journal.notes.map .note) = journal.begun := by
  rw [Journal.begun, Journal.begun, Journal.notes, List.filterMap_map, List.filterMap_filterMap]
  refine congrArg (fun view => List.filterMap view journal) (funext fun e => ?_)
  cases e <;> rfl

/-- **The remarks made on a first write begin no fragment.** -/
theorem Splitter.begun_opening (bytes : Bytes) :
    Journal.begun ((opening bytes).2.map .note) = [] := by
  have hread : Journal.begun ((readHello (.ofBytes bytes)).journal.notes.map .note) = [] := by
    rw [Journal.begun_notes]
    exact Reassembly.new.begun_readHello _
  rw [opening]
  split
  · rw [List.map_append, Journal.begun_append, hread]
    rfl
  · split
    · rw [List.map_append, Journal.begun_append, hread]
      rfl
    · rw [List.map_append, Journal.begun_append, hread]
      rfl

end SplitHello

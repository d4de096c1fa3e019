import SplitHello.Proofs.Fragment.Row
import SplitHello.Proofs.Fragment.Undisturbed
import SplitHello.Proofs.Splitter.Accounting
import SplitHello.Proofs.Splitter.Hiding

/-!
# Proofs/Splitter/Boundaries — where fragments begin and end, over any transport

The fragments of a write are settled before the transport is called: `Placed.ofPlan` has them, zone
after zone, each cut with the random words that those before it have left.  Over any transport a
send delivers them in a row, and how far it comes is all that the transport decides.

* `row_writeZones` — zones are written in a row, and a row that came to its end has drawn for all;
* `writeZones_of_acceptsAll` — a transport that accepts everything is offered each piece once;
* `send_of_same_words` — so two sends of the same bytes begin the same fragments, as far as they
  come.
-/

namespace SplitHello

open Transport

namespace Placed

/-- The fragments of zones, each zone cut with the random words that those before it have left. -/
def ofPlan (delays : Interval) : Words → List (String × Bytes × Interval) → List Placed
  | _, [] => []
  | words, (zone, bytes, sizes) :: later =>
      let fragments := Fragment.cut sizes delays words bytes
      ofZone zone 0 fragments ++ ofPlan delays (Fragment.wordsAfter words fragments) later

/-- The random words once fragments are drawn. -/
def wordsAfter (words : Words) (row : List Placed) : Words :=
  Fragment.wordsAfter words (row.map fragment)

theorem wordsAfter_ofZone_append (words : Words) (zone : String) (position : Nat)
    (fragments : List Fragment) (later : List Placed) :
    wordsAfter words (ofZone zone position fragments ++ later) =
      wordsAfter (Fragment.wordsAfter words fragments) later := by
  rw [wordsAfter, List.map_append, map_fragment_ofZone, Fragment.wordsAfter, List.foldl_append]
  rfl

theorem pieces_ofZone_append (zone : String) (position : Nat) (fragments : List Fragment)
    (later : List Placed) :
    pieces (ofZone zone position fragments ++ later) =
      fragments.map Fragment.bytes ++ pieces later := by
  have hpieces : ∀ row : List Placed, pieces row = (row.map fragment).map Fragment.bytes :=
    fun row => List.map_map.symm
  rw [hpieces, List.map_append, map_fragment_ofZone, List.map_append, ← hpieces]

/-- The pieces of zones make up the zones. -/
theorem flatten_pieces_ofPlan (delays : Interval) :
    ∀ (words : Words) (plan : List (String × Bytes × Interval)),
      (pieces (ofPlan delays words plan)).flatten = zoneBytes plan
  | _, [] => rfl
  | words, (zone, bytes, sizes) :: later => by
      rw [ofPlan, pieces_ofZone_append, List.flatten_append, ← List.flatMap_def,
        Fragment.flatMap_cut, flatten_pieces_ofPlan, zoneBytes_cons]

end Placed

namespace Splitter

/-- **Zones are written in a row**, and if nothing went wrong, all their fragments were drawn. -/
theorem row_writeZones {τ : Type} [Transport τ] [LawfulTransport τ] :
    ∀ (writer : FragmentWriter τ) (plan : List (String × Bytes × Interval)),
      let reply := writeZones writer plan
      let row := Placed.ofPlan writer.delayMs writer.words plan
      Row row reply.journal reply.result ∧
        (reply.result = none → reply.state.words = Placed.wordsAfter writer.words row)
  | writer, [] => ⟨.done, fun _ => rfl⟩
  | writer, (zone, bytes, sizes) :: later => by
      obtain ⟨n, hw, -, hdelay, hwords⟩ := writing_writeZone writer zone bytes sizes
      simp only [writeZones, Placed.ofPlan]
      generalize writer.writeZone zone bytes sizes = reply at hw hdelay hwords
      obtain ⟨wrong, after, journal⟩ := reply
      have hrow := hw.row
      cases wrong with
      | some failure =>
          have hquiet : (noteFailure (.fragmentFailed zone after.written) failure).Quiet := by
            cases failure <;> exact ⟨rfl, rfl, rfl⟩
          exact ⟨hrow.cut_off hquiet, fun hnone => absurd hnone (Option.some_ne_none _)⟩
      | none =>
          obtain ⟨hlater, hlast⟩ := row_writeZones after later
          dsimp only at hdelay hwords
          rw [hdelay, hwords rfl] at hlater hlast
          refine ⟨hrow.append hlater, fun hnone => ?_⟩
          rw [Placed.wordsAfter_ofZone_append]
          exact hlast hnone

/-- **A transport that accepts everything is offered each piece once.** -/
theorem writeZones_of_acceptsAll {τ : Type} [Transport τ] [LawfulTransport τ] :
    ∀ (writer : FragmentWriter τ) (plan : List (String × Bytes × Interval)),
      AcceptsAll writer.transport →
      let reply := writeZones writer plan
      reply.result = none ∧
        reply.journal.offers = Placed.pieces (Placed.ofPlan writer.delayMs writer.words plan)
  | writer, [], _ => ⟨rfl, rfl⟩
  | writer, (zone, bytes, sizes) :: later, h => by
      obtain ⟨n, -, -, hdelay, hwords⟩ := writing_writeZone writer zone bytes sizes
      obtain ⟨hnone, haccepts, hoffers, -⟩ :=
        writer.writeZone_cut_of_acceptsAll zone bytes sizes h
      simp only [writeZones, Placed.ofPlan, hnone]
      obtain ⟨hlater, hmore⟩ := writeZones_of_acceptsAll _ later haccepts
      refine ⟨hlater, ?_⟩
      rw [Reply.journal_after, Journal.offers_append, hoffers, hmore, hdelay, hwords hnone,
        Placed.pieces_ofZone_append]

/-- A send that delivers planned fragments, `whole` of them in full, where `words` are left once
all are drawn. -/
structure FollowsPlan {τ : Type} (planned : List (String × Nat × Nat × UInt64))
    (pieces : List Bytes) (words : Words) (whole : Nat)
    (reply : Reply (Splitter τ) (Except PartialWrite Nat)) : Prop where
  /-- Those accepted in full are the first ones. -/
  accepted_iff : ∀ i < planned.length,
    (pieces.take (i + 1)).flatten <+: reply.journal.accepted ↔ i < whole
  /-- They were begun, and the next one if there is one. -/
  begun : reply.journal.begun = planned.take (whole + 1)
  /-- If the send succeeds, all were begun and accepted in full, and no more words were drawn. -/
  of_ok : ∀ n, reply.result = .ok n →
    reply.journal.begun = planned ∧ whole = planned.length ∧ reply.state.words = words
  /-- If it fails, there is a next one. -/
  of_error : ∀ failed, reply.result = .error failed → whole < planned.length
  /-- The pauses behind those accepted in full were made, unless they are nothing. -/
  pauses : reply.journal.pauses = ((planned.take whole).map fun x => x.2.2.2).filter (· ≠ 0)
  /-- Every call offers what is not yet accepted of the fragment last begun. -/
  offers : reply.journal.EachWrite (OffersRest pieces)

/-- A send that delivers a row follows the plan of the row. -/
theorem exists_followsPlan {τ : Type} {row : List Placed} {wrong : Option Failure}
    {words : Words} {n : Nat} {reply : Reply (Splitter τ) (Except PartialWrite Nat)}
    (h : Row row reply.journal wrong) (hresult : reply.result = settled (n, wrong))
    (hwords : wrong = none → reply.state.words = words) :
    ∃ whole, FollowsPlan (row.map Placed.view) (Placed.pieces row) words whole reply := by
  obtain ⟨whole, hcomes⟩ := h.exists_comesTo
  have hlength : (row.map Placed.view).length = row.length := List.length_map ..
  have hbegun : reply.journal.begun = (row.map Placed.view).take (whole + 1) := by
    rw [hcomes.begun, List.map_take]
  refine ⟨whole, fun i hi => ?_, hbegun, fun m hok => ?_, fun failed herror => ?_, ?_, ?_⟩
  · exact hcomes.flatten_prefix_iff (hlength ▸ hi)
  · cases wrong with
    | some failure => cases hresult.symm.trans hok
    | none =>
        have hall : whole = row.length := hcomes.eq_length_iff.mpr rfl
        refine ⟨hbegun.trans (List.take_of_length_le ?_), hall.trans hlength.symm, hwords rfl⟩
        exact Nat.le_succ_of_le (Nat.le_of_eq (hlength.trans hall.symm))
  · cases wrong with
    | none => cases hresult.symm.trans herror
    | some failure =>
        rw [hlength]
        refine Nat.lt_of_le_of_ne hcomes.le_length fun hall => ?_
        cases hcomes.eq_length_iff.mp hall
  · rw [hcomes.pauses, Placed.pauses, ← List.map_take, List.map_map]
    rfl
  · exact h.eachWrite

/-! ## One send -/

variable {τ : Type} [Transport τ]

/-- The fragments that zones are to be sent in. -/
def row (s : Splitter τ) (zones : Zones) : List Placed :=
  Placed.ofPlan s.policy.delayMs s.words (zonePlan s.policy zones)

/-- The writer that zones are sent with. -/
def writer (s : Splitter τ) : FragmentWriter τ := ⟨s.transport, s.words, s.policy.delayMs, 0⟩

/-- Sending zones writes them, and keeps the random words that are left. -/
theorem sendZones_eq_writeZones (s : Splitter τ) (zones : Zones) :
    let reply := writeZones s.writer (zonePlan s.policy zones)
    (s.sendZones zones).result = settled (reply.state.written, reply.result) ∧
      (s.sendZones zones).state.words = reply.state.words ∧
      (s.sendZones zones).journal = reply.journal := by
  intro reply
  rw [sendZones]
  split
  · next hnone =>
    have hsettled : settled (reply.state.written, reply.result) = .ok reply.state.written :=
      congrArg (fun wrong => settled (reply.state.written, wrong)) hnone
    exact ⟨hsettled.symm, words_withWords _ _, rfl⟩
  · next failure hfailed =>
    have hsettled : settled (reply.state.written, reply.result) =
        .error ⟨reply.state.written, failure⟩ :=
      congrArg (fun wrong => settled (reply.state.written, wrong)) hfailed
    exact ⟨hsettled.symm, words_withWords _ _, rfl⟩

/-- **The first send of bytes that are cut up writes the zones**, with remarks ahead of them. -/
theorem send_eq_writeZones {s : Splitter τ} {bytes : Bytes} {zones : Zones}
    (hs : s.started = false) (hzones : (opening bytes).1 = some zones) :
    let reply := writeZones s.writer (zonePlan s.policy zones)
    (s.send bytes).result = settled (reply.state.written, reply.result) ∧
      (s.send bytes).state.words = reply.state.words ∧
      ∃ remarks : Journal, remarks.Quiet ∧ (s.send bytes).journal = remarks ++ reply.journal := by
  obtain ⟨hresult, hwords, hjournal⟩ := sendZones_eq_writeZones { s with started := true } zones
  obtain ⟨hsent, hleft, hall⟩ := send_eq_sendZones hs hzones
  have hquiet : Journal.Quiet ((.beganWrite bytes.length true :: (opening bytes).2).map .note) :=
    ⟨Journal.offers_map_note _, Journal.pauses_map_note _, begun_opening bytes⟩
  refine ⟨hsent.trans hresult, hleft.trans hwords, _, hquiet, ?_⟩
  rw [hall, hjournal]
  rfl

variable [LawfulTransport τ]

/-- **The first send of bytes that are cut up delivers their fragments in a row**, and if it
succeeds, all of them were drawn. -/
theorem row_send {s : Splitter τ} {bytes : Bytes} {zones : Zones} (hs : s.started = false)
    (hzones : (opening bytes).1 = some zones) :
    ∃ n wrong, (s.send bytes).result = settled (n, wrong) ∧
      Row (s.row zones) (s.send bytes).journal wrong ∧
      (wrong = none → (s.send bytes).state.words = Placed.wordsAfter s.words (s.row zones)) := by
  obtain ⟨hresult, hwords, remarks, hquiet, hjournal⟩ := send_eq_writeZones hs hzones
  obtain ⟨hrow, hlast⟩ := row_writeZones s.writer (zonePlan s.policy zones)
  exact ⟨_, _, hresult, hjournal ▸ .quiet hquiet hrow, fun h => hwords.trans (hlast h)⟩

/-- **Over a transport that accepts everything such a send succeeds**, and each piece is offered
once. -/
theorem send_of_acceptsAll {s : Splitter τ} {bytes : Bytes} {zones : Zones}
    (hs : s.started = false) (hzones : (opening bytes).1 = some zones)
    (haccepts : AcceptsAll s.transport) :
    (∃ n, (s.send bytes).result = .ok n) ∧
      (s.send bytes).journal.offers = Placed.pieces (s.row zones) := by
  obtain ⟨hresult, -, remarks, hquiet, hjournal⟩ := send_eq_writeZones hs hzones
  obtain ⟨hnone, hoffers⟩ :=
    writeZones_of_acceptsAll s.writer (zonePlan s.policy zones) haccepts
  refine ⟨⟨_, hresult.trans (congrArg (fun wrong => settled (_, wrong)) hnone)⟩, ?_⟩
  rw [hjournal, Journal.offers_append, hquiet.offers, hoffers]
  rfl

/-- **Where fragments begin and end does not depend on the transport.**  Take a first send of bytes
that can be cut up over a transport that accepts everything: it succeeds, and what it offers are the
fragments it begins.  Then over any transport a first send of the same bytes, with the same policy
and the same random words, begins these fragments, as far as it comes: all of them if it succeeds,
and then it draws as many words; if it fails, those accepted in full and one more.  Whatever is
offered is what is not yet accepted of the fragment last begun, and the pauses that are made are
those behind the fragments accepted in full. -/
theorem send_of_same_words {σ : Type} [Transport σ] [LawfulTransport σ] {calm : Splitter σ}
    {s : Splitter τ} {bytes : Bytes} (hbytes : Cuttable bytes) (hcalm : calm.started = false)
    (haccepts : AcceptsAll calm.transport) (hs : s.started = false)
    (hpolicy : s.policy = calm.policy) (hwords : s.words = calm.words) :
    let undisturbed := calm.send bytes
    let planned := undisturbed.journal.begun
    let pieces := undisturbed.journal.offers
    let reply := s.send bytes
    (undisturbed.result = .ok bytes.length ∧ pieces.flatten = bytes ∧
      pieces.map List.length = planned.map fun x => x.2.2.1) ∧
    reply.journal.begun <+: planned ∧
    ∃ whole, FollowsPlan planned pieces undisturbed.state.words whole reply := by
  intro undisturbed planned pieces reply
  obtain ⟨zones, hzones⟩ := exists_zones_of_cuttable hbytes
  obtain ⟨⟨n, hok⟩, hpieces⟩ := send_of_acceptsAll hcalm hzones haccepts
  obtain ⟨_, calmly, hcalmly, hcalmrow, hcalmwords⟩ := row_send hcalm hzones
  obtain ⟨_, hplan⟩ := exists_followsPlan hcalmrow hcalmly hcalmwords
  obtain ⟨hplanned, -, hleft⟩ := hplan.of_ok n hok
  have hrow : s.row zones = calm.row zones := by rw [row, row, hpolicy, hwords]
  obtain ⟨_, wrong, hresult, hsrow, hswords⟩ := row_send hs hzones
  rw [hrow, hwords, ← hleft] at hswords
  obtain ⟨whole, hfollows⟩ := exists_followsPlan (hrow ▸ hsrow) hresult hswords
  rw [← hplanned, ← hpieces] at hfollows
  refine ⟨⟨?_, (congrArg List.flatten hpieces).trans ?_,
    (congrArg (List.map List.length) hpieces).trans ?_⟩, ?_, whole, hfollows⟩
  · exact hok.trans (congrArg Except.ok ((send_of_cuttable hcalm hbytes).whole_and_stops.1 n hok))
  · obtain ⟨hello, name, -, -, haround⟩ := opening_eq_some_iff.mp hzones
    rw [row, Placed.flatten_pieces_ofPlan, zoneBytes_zonePlan _ haround]
  · refine Eq.trans ?_ (congrArg (List.map fun x => x.2.2.1) hplanned).symm
    rw [Placed.pieces, List.map_map, List.map_map]
    rfl
  · rw [hfollows.begun]
    exact List.take_prefix _ _

/-- A hello is planned in 25 fragments.  Over a transport that breaks in the middle of the sixth it
goes as planned up to there. -/
theorem send_of_same_words_breaksLate :
    let calm := (Splitter.new ScriptedTransport.acceptsAny .default (.splitMix 0)).state
    let s := (Splitter.new breaksLate .default (.splitMix 0)).state
    let undisturbed := calm.send sampleWrite
    let reply := s.send sampleWrite
    Cuttable sampleWrite ∧ AcceptsAll calm.transport ∧ calm.started = false ∧
      s.started = false ∧ s.policy = calm.policy ∧ s.words = calm.words ∧
      undisturbed.journal.begun.length = 25 ∧
      reply.result = .error ⟨70, .io ⟨.brokenPipe, "broken pipe"⟩⟩ ∧
      reply.journal.pauses = [19, 10, 11, 11, 12] ∧
      FollowsPlan undisturbed.journal.begun undisturbed.journal.offers undisturbed.state.words 5
        reply := by
  intro calm s undisturbed reply
  have haccepts : AcceptsAll calm.transport := ScriptedTransport.acceptsAll_of_free rfl
  have hcalm : calm.started = false := rfl
  have hs : s.started = false := rfl
  have hpolicy : s.policy = calm.policy := rfl
  have hwords : s.words = calm.words := rfl
  have hplanned : undisturbed.journal.begun.length = 25 := by decide +kernel
  have hbegun : reply.journal.begun.length = 6 := by decide +kernel
  have hfailed : reply.result = .error ⟨70, .io ⟨.brokenPipe, "broken pipe"⟩⟩ := by
    decide +kernel
  obtain ⟨-, -, whole, hfollows⟩ :=
    send_of_same_words cuttable_sampleWrite hcalm haccepts hs hpolicy hwords
  have hwhole : whole = 5 := by
    have hlength := congrArg List.length hfollows.begun
    have hlt := hfollows.of_error _ hfailed
    rw [List.length_take, hbegun, hplanned] at hlength
    rw [hplanned] at hlt
    omega
  exact ⟨cuttable_sampleWrite, haccepts, hcalm, hs, hpolicy, hwords, hplanned, hfailed,
    by decide +kernel, hwhole ▸ hfollows⟩

end Splitter

end SplitHello

import SplitHello.Proofs.Fragment.Draw
import SplitHello.Proofs.Fragment.Writing
import SplitHello.Proofs.Transport.Accepting

/-!
# Proofs/Fragment/Undisturbed — writing to a transport that accepts everything

Where the transport accepts everything, a zone is written without a fault, each fragment by a single
call, and what is put down is settled by the draws alone: `sentAtOnce` is the part of one fragment.

* `writeFragments_of_acceptsAll`, `writeZone_cut_of_acceptsAll` — the fragments go out whole, one
  after the other;
* `wordsAfter_cut` — and draw a size and a pause each;
* `writeZone_of_acceptsAll` — so a zone goes out in the pieces that are drawn for it.
-/

namespace SplitHello

/-- Cutting a zone draws once for each of its fragments. -/
theorem Fragment.wordsAfter_cut (sizes delays : Interval) (words : Words) (zone : Bytes) :
    wordsAfter words (cut sizes delays words zone) =
      Draw.wordsAfter sizes delays words (cut sizes delays words zone).length := by
  generalize hcut : cut sizes delays words zone = fragments
  induction fragments generalizing words zone with
  | nil => rfl
  | cons x later ih =>
      obtain ⟨-, rfl, hlater⟩ := cut_eq_cons_iff.mp hcut
      exact ih _ _ hlater

namespace FragmentWriter

open Transport

variable {τ : Type} [Transport τ] [LawfulTransport τ]

/-- What is put down for a fragment, the `index`-th of its zone, that a single call accepts. -/
def sentAtOnce (zone : String) (index position : Nat) (x : Fragment) : Journal :=
  begins zone index position x :: .write x.bytes (.ok x.bytes.length) :: pauseAfter x

theorem offers_sentAtOnce (zone : String) (index position : Nat) (x : Fragment) :
    (sentAtOnce zone index position x).offers = [x.bytes] :=
  congrArg (x.bytes :: ·) (offers_pauseAfter x)

/-- **To a transport that accepts everything the fragments go out whole**, one after the other, and
it still accepts everything. -/
theorem writeFragments_of_acceptsAll (zone : String) (index position : Nat)
    (writer : FragmentWriter τ) (fragments : List Fragment) (hne : ∀ x ∈ fragments, x.bytes ≠ [])
    (h : AcceptsAll writer.transport) :
    let reply := writer.writeFragments zone index position fragments
    reply.result = none ∧ AcceptsAll reply.state.transport ∧
      reply.journal.offers = fragments.map Fragment.bytes ∧
      reply.journal = (fragments.mapIdx fun i x => sentAtOnce zone (index + i + 1)
          (position + ((fragments.take i).flatMap Fragment.bytes).length) x).flatten ++
        [.note (.zoneWritten zone (index + fragments.length)
          (position + (fragments.flatMap Fragment.bytes).length))] := by
  induction fragments generalizing index position writer with
  | nil => exact ⟨rfl, h, rfl, rfl⟩
  | cons x later ih =>
      have hdeliver := deliver_of_acceptsAll h .acceptedNothing (hne x List.mem_cons_self)
      obtain ⟨hresult, haccepts, hoffers, hjournal⟩ := ih (index + 1) (position + x.bytes.length)
        (writer.advance x ⟨(x.bytes.length, none), (write writer.transport x.bytes).state,
          [.write x.bytes (.ok x.bytes.length)]⟩)
        (fun y hy => hne y (List.mem_cons_of_mem _ hy)) (h.state_write x.bytes)
      have hfirst : begins zone (index + 1) position x ::
          [.write x.bytes (.ok x.bytes.length)] ++ pauseAfter x =
          sentAtOnce zone (index + 1) position x := rfl
      simp only [writeFragments, hdeliver, hfirst]
      refine ⟨hresult, haccepts, ?_, ?_⟩
      · rw [Reply.journal_after, Journal.offers_append, offers_sentAtOnce, hoffers]
        rfl
      · rw [Reply.journal_after, hjournal]
        simp only [List.mapIdx_cons, List.flatten_cons, List.take_zero, List.take_succ_cons,
          List.flatMap_nil, List.flatMap_cons, List.length_append, List.length_cons,
          List.length_nil, List.append_assoc, Nat.add_zero, Nat.add_assoc, Nat.add_comm 1]

/-- Then a zone goes out in its fragments. -/
theorem writeZone_cut_of_acceptsAll (writer : FragmentWriter τ) (zone : String) (bytes : Bytes)
    (sizes : Interval) (h : AcceptsAll writer.transport) :
    let reply := writer.writeZone zone bytes sizes
    let fragments := Fragment.cut sizes writer.delayMs writer.words bytes
    reply.result = none ∧ AcceptsAll reply.state.transport ∧
      reply.journal.offers = fragments.map Fragment.bytes ∧
      reply.journal = (fragments.mapIdx fun i x =>
          sentAtOnce zone (i + 1) ((fragments.take i).flatMap Fragment.bytes).length x).flatten ++
        [.note (.zoneWritten zone fragments.length bytes.length)] := by
  intro reply fragments
  obtain ⟨hresult, haccepts, hoffers, hjournal⟩ := writeFragments_of_acceptsAll zone 0 0 writer
    fragments (fun _ hx => Fragment.ne_nil_of_mem_cut hx) h
  refine ⟨hresult, haccepts, hoffers, hjournal.trans ?_⟩
  simp only [Nat.zero_add, fragments, Fragment.flatMap_cut]

/-- **A zone goes out in the pieces that are drawn for it.**  Writing it to a transport that accepts
everything succeeds and counts its bytes.  What is offered are its bytes in order, cut as the sizes
drawn for the pieces say; for each piece a size and then a pause is drawn, and nothing else.  Ahead
of each it is noted that the piece begins, and behind each, the last one included, the pause drawn
for it is made, unless that is nothing. -/
theorem writeZone_of_acceptsAll (writer : FragmentWriter τ) (zone : String) (bytes : Bytes)
    (sizes : Interval) (h : AcceptsAll writer.transport) :
    let reply := writer.writeZone zone bytes sizes
    let drawn := Draw.nth sizes writer.delayMs writer.words
    let sent := reply.journal.offers
    reply.result = none ∧ reply.state.written = writer.written + bytes.length ∧
      CutAsDrawn sizes drawn bytes sent ∧
      reply.state.words = Draw.wordsAfter sizes writer.delayMs writer.words sent.length ∧
      (bytes = [] → sent = [] ∧ reply.state.words = writer.words) ∧
      reply.journal = (sent.mapIdx fun i piece =>
          sentAtOnce zone (i + 1) (sent.take i).flatten.length
            ⟨piece, (drawn i).delay, (drawn i).words⟩).flatten ++
        [.note (.zoneWritten zone sent.length bytes.length)] := by
  intro reply drawn sent
  obtain ⟨n, hwriting, hwritten, -, hwords⟩ := writing_writeZone writer zone bytes sizes
  obtain ⟨hresult, -, hoffers, hjournal⟩ := writeZone_cut_of_acceptsAll writer zone bytes sizes h
  have hsent : sent = (Fragment.cut sizes writer.delayMs writer.words bytes).map Fragment.bytes :=
    hoffers
  have hdrawn : reply.state.words =
      Draw.wordsAfter sizes writer.delayMs writer.words sent.length := by
    rw [hsent, List.length_map, ← Fragment.wordsAfter_cut]
    exact hwords hresult
  refine ⟨hresult, ?_, hsent ▸ Fragment.cutAsDrawn_cut .., hdrawn, ?_, ?_⟩
  · have htotal := hwriting.count_eq hresult
    rw [Fragment.flatMap_cut] at htotal
    exact hwritten.trans (congrArg (writer.written + ·) htotal)
  · rintro rfl
    have hnil : sent = [] := by rw [hsent, Fragment.cut, List.map_nil]
    exact ⟨hnil, hdrawn.trans (by rw [hnil]; rfl)⟩
  · refine hjournal.trans ?_
    rw [hsent, Fragment.mapIdx_cut, List.length_map]
    simp only [List.flatMap_def, List.map_take, drawn]

/-- Seven bytes in pieces of four bytes, of one although nothing is drawn, and of the two that are
left although three are drawn; one of the three pauses is nothing. -/
theorem writeZone_of_acceptsAll_sample :
    let writer : FragmentWriter ScriptedTransport :=
      ⟨.acceptsAny, .splitMix 6, ⟨0, 2, by decide⟩, 0⟩
    let sizes : Interval := ⟨0, 5, by decide⟩
    let reply := writer.writeZone "sni" [1, 2, 3, 4, 5, 6, 7] sizes
    let drawn := Draw.nth sizes writer.delayMs writer.words
    AcceptsAll writer.transport ∧
      reply.journal.offers = [[1, 2, 3, 4], [5], [6, 7]] ∧ reply.journal.pauses = [1, 2] ∧
      (drawn 0).size = 4 ∧ (drawn 1).size = 0 ∧ (drawn 2).size = 3 ∧
      CutAsDrawn sizes drawn [1, 2, 3, 4, 5, 6, 7] reply.journal.offers ∧
      reply.state.words = Draw.wordsAfter sizes writer.delayMs writer.words 3 := by
  intro writer sizes reply drawn
  have haccepts : AcceptsAll writer.transport := ScriptedTransport.acceptsAll_of_free rfl
  have hoffers : reply.journal.offers = [[1, 2, 3, 4], [5], [6, 7]] := by decide +kernel
  obtain ⟨-, -, hcut, hwords, -⟩ :=
    writeZone_of_acceptsAll writer "sni" [1, 2, 3, 4, 5, 6, 7] sizes haccepts
  have hcount : reply.journal.offers.length = 3 := congrArg List.length hoffers
  refine ⟨haccepts, hoffers, by decide +kernel, by decide +kernel, by decide +kernel,
    by decide +kernel, hcut, ?_⟩
  rw [← hcount]
  exact hwords

end FragmentWriter

end SplitHello

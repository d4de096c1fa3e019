import SplitHello.Proofs.Fragment.Writing
import SplitHello.Proofs.Journal.Writes

/-!
# Proofs/Fragment/Row — fragments delivered in a row, whatever their zones

Seen from the transport the fragments of several zones are one row: each is begun, delivered and
followed by its pause before the next one, and the first that cannot be delivered ends the row.
`Row` says which journals do so for fragments at given places, and takes no notice of what else is
remarked.  How far a row comes is one number, that of the fragments delivered whole.

* `Writing.row` — the fragments of a zone are written in a row;
* `Row.append`, `Row.cut_off` — rows one after the other;
* `Row.exists_comesTo` — what a row has begun, accepted and waited for;
* `Row.eachWrite` — every call offers what of one fragment is not yet accepted.
-/

namespace SplitHello

open FragmentWriter

/-- A fragment at its place in a zone. -/
structure Placed where
  /-- The zone. -/
  zone : String
  /-- Where in the zone it stands. -/
  position : Nat
  /-- The fragment. -/
  fragment : Fragment

namespace Placed

/-- What is noted of a fragment when it begins. -/
def view (x : Placed) : String × Nat × Nat × UInt64 :=
  (x.zone, x.position, x.fragment.bytes.length, x.fragment.delay)

/-- The fragments of a zone from a position on. -/
def ofZone (zone : String) : Nat → List Fragment → List Placed
  | _, [] => []
  | position, x :: later => ⟨zone, position, x⟩ :: ofZone zone (position + x.bytes.length) later

theorem map_fragment_ofZone (zone : String) (position : Nat) (fragments : List Fragment) :
    (ofZone zone position fragments).map fragment = fragments := by
  induction fragments generalizing position with
  | nil => rfl
  | cons x later ih => rw [ofZone, List.map_cons, ih]

/-- The bytes of fragments, piece by piece. -/
def pieces (row : List Placed) : List Bytes := row.map fun x => x.fragment.bytes

theorem flatten_pieces_take_succ (x : Placed) (later : List Placed) (n : Nat) :
    ((pieces (x :: later)).take (n + 1)).flatten =
      x.fragment.bytes ++ ((pieces later).take n).flatten := rfl

/-- The pauses behind fragments; a pause of nothing is none. -/
def pauses (row : List Placed) : List UInt64 :=
  (row.map fun x => x.fragment.delay).filter (· ≠ 0)

theorem pauses_cons (x : Placed) (later : List Placed) :
    pauses (x :: later) = (pauseAfter x.fragment).pauses ++ pauses later := by
  rw [pauses, List.map_cons, List.filter_cons, pauseAfter]
  by_cases hzero : x.fragment.delay = 0
  · rw [if_neg (by simp [hzero]), if_pos hzero]
    rfl
  · rw [if_pos (by simpa using hzero), if_neg hzero]
    rfl

end Placed

theorem begun_pauseAfter (x : Fragment) : (pauseAfter x).begun = [] := by
  rw [pauseAfter]
  split <;> rfl

/-- The journals of delivering fragments in a row, with what went wrong. -/
inductive Row : List Placed → Journal → Option Failure → Prop
  /-- No fragment is left. -/
  | done : Row [] [] none
  /-- Remarks are made that begin no fragment. -/
  | quiet {row : List Placed} {first journal : Journal} {wrong : Option Failure}
      (h : first.Quiet) (rest : Row row journal wrong) : Row row (first ++ journal) wrong
  /-- A fragment could not be delivered, of which the first `n` bytes were accepted. -/
  | failed {x : Placed} {later : List Placed} {index n : Nat} {calls more : Journal}
      {failure : Failure}
      (h : Delivery .acceptedNothing x.fragment.bytes calls (n, some failure))
      (hmore : more.Quiet) :
      Row (x :: later) (begins x.zone index x.position x.fragment :: calls ++ more)
        (some failure)
  /-- A fragment was delivered. -/
  | next {x : Placed} {later : List Placed} {index n : Nat} {calls journal : Journal}
      {wrong : Option Failure}
      (h : Delivery .acceptedNothing x.fragment.bytes calls (n, none))
      (rest : Row later journal wrong) :
      Row (x :: later)
        (begins x.zone index x.position x.fragment :: calls ++ pauseAfter x.fragment ++ journal)
        wrong

/-- **The fragments of a zone are written in a row.** -/
theorem Writing.row {zone : String} {index position : Nat} {fragments : List Fragment}
    {journal : Journal} {outcome : Nat × Option Failure}
    (h : Writing zone index position fragments journal outcome) :
    Row (Placed.ofZone zone position fragments) journal outcome.2 := by
  induction h with
  | @done index position =>
      have hquiet : Journal.Quiet [.note (.zoneWritten zone index position)] := ⟨rfl, rfl, rfl⟩
      exact .quiet hquiet .done
  | @failed index position n x later calls failure h =>
      rw [← List.append_nil (begins _ _ _ _ :: calls)]
      exact .failed (x := ⟨zone, position, x⟩) h Journal.quiet_nil
  | @next index position n x later calls journal outcome h _ ih =>
      exact .next (x := ⟨zone, position, x⟩) h ih

namespace Row

variable {row more : List Placed} {journal later : Journal} {wrong : Option Failure}

/-- **A row goes on behind one that came to its end.** -/
theorem append (h : Row row journal none) (rest : Row more later wrong) :
    Row (row ++ more) (journal ++ later) wrong := by
  generalize hnone : none = ended at h
  induction h with
  | done => exact rest
  | quiet h _ ih =>
      rw [List.append_assoc]
      exact .quiet h (ih hnone)
  | failed => cases hnone
  | next h _ ih =>
      rw [List.append_assoc]
      exact .next h (ih hnone)

/-- **What stands behind a fragment that could not be delivered plays no part.** -/
theorem cut_off {failure : Failure} (h : Row row journal (some failure)) (hlater : later.Quiet) :
    Row (row ++ more) (journal ++ later) (some failure) := by
  generalize hsome : some failure = ended at h
  induction h with
  | done => cases hsome
  | quiet h _ ih =>
      rw [List.append_assoc]
      exact .quiet h (ih hsome)
  | failed h hmore =>
      rw [List.append_assoc]
      exact .failed h (hmore.append hlater)
  | next h _ ih =>
      rw [List.append_assoc]
      exact .next h (ih hsome)

/-- All of a fragment that was delivered was accepted. -/
theorem accepted_delivered {x : Placed} {index n : Nat} {calls : Journal}
    (h : Delivery .acceptedNothing x.fragment.bytes calls (n, none)) :
    Journal.accepted (begins x.zone index x.position x.fragment :: calls ++
      pauseAfter x.fragment) = x.fragment.bytes := by
  have hall : x.fragment.bytes.length ≤ n := Nat.le_of_eq (h.count_eq rfl).symm
  rw [Journal.accepted_append, accepted_pauseAfter, List.append_nil]
  exact h.accepted_eq.trans (List.take_of_length_le hall)

/-- It was begun, and nothing else. -/
theorem begun_delivered {x : Placed} {index : Nat} {calls : Journal}
    {outcome : Nat × Option Failure}
    (h : Delivery .acceptedNothing x.fragment.bytes calls outcome) :
    Journal.begun (begins x.zone index x.position x.fragment :: calls ++
      pauseAfter x.fragment) = [x.view] := by
  rw [Journal.begun_append, begun_pauseAfter, List.append_nil]
  exact congrArg (x.view :: ·) h.begun_eq

/-- How far a row has come: `whole` of its fragments were delivered whole. -/
structure ComesTo (row : List Placed) (journal : Journal) (wrong : Option Failure)
    (whole : Nat) : Prop where
  /-- There are so many. -/
  le_length : whole ≤ row.length
  /-- All of them were delivered whole exactly if nothing went wrong. -/
  eq_length_iff : whole = row.length ↔ wrong = none
  /-- Those delivered whole were begun, and the next one. -/
  begun : journal.begun = (row.take (whole + 1)).map Placed.view
  /-- The pauses behind those delivered whole were made. -/
  pauses : journal.pauses = Placed.pauses (row.take whole)
  /-- Their bytes were accepted, -/
  accepted : ((Placed.pieces row).take whole).flatten <+: journal.accepted
  /-- but not all of the next one. -/
  length_lt : whole < row.length →
    journal.accepted.length < ((Placed.pieces row).take (whole + 1)).flatten.length

/-- Remarks ahead of a row do not change how far it comes. -/
theorem ComesTo.after_quiet {first : Journal} {whole : Nat} (h : ComesTo row journal wrong whole)
    (hfirst : first.Quiet) : ComesTo row (first ++ journal) wrong whole := by
  have haccepted : Journal.accepted (first ++ journal) = journal.accepted := by
    rw [Journal.accepted_append, hfirst.accepted, List.nil_append]
  refine ⟨h.le_length, h.eq_length_iff, ?_, ?_, haccepted ▸ h.accepted, haccepted ▸ h.length_lt⟩
  · rw [Journal.begun_append, hfirst.begun, h.begun, List.nil_append]
  · rw [Journal.pauses_append, hfirst.pauses, h.pauses, List.nil_append]

/-- A row whose first fragment could not be delivered comes to nothing. -/
theorem comesTo_failed {x : Placed} {index n : Nat} {calls : Journal} {failure : Failure}
    (h : Delivery .acceptedNothing x.fragment.bytes calls (n, some failure))
    (hlater : later.Quiet) :
    ComesTo (x :: row) (begins x.zone index x.position x.fragment :: calls ++ later)
      (some failure) 0 := by
  obtain ⟨hshort, -⟩ := h.stops_short rfl rfl
  have haccepted : Journal.accepted (begins x.zone index x.position x.fragment :: calls ++ later) =
      x.fragment.bytes.take n := by
    rw [Journal.accepted_append, hlater.accepted, List.append_nil]
    exact h.accepted_eq
  refine ⟨Nat.zero_le _, ?_, ?_, ?_, List.nil_prefix, fun _ => ?_⟩
  · exact iff_of_false (Nat.succ_ne_zero _).symm (Option.some_ne_none _)
  · rw [Journal.begun_append, hlater.begun, List.append_nil]
    exact congrArg (x.view :: ·) h.begun_eq
  · rw [Journal.pauses_append, hlater.pauses, List.append_nil]
    exact h.pauses_eq
  · rw [haccepted, Placed.flatten_pieces_take_succ, List.length_append, List.length_take]
    exact Nat.lt_of_le_of_lt (Nat.min_le_left _ _) (Nat.lt_add_right _ hshort)

/-- Behind a fragment that was delivered a row comes one further. -/
theorem ComesTo.after_delivered {x : Placed} {index n whole : Nat} {calls : Journal}
    (hcomes : ComesTo row journal wrong whole)
    (h : Delivery .acceptedNothing x.fragment.bytes calls (n, none)) :
    ComesTo (x :: row) (begins x.zone index x.position x.fragment :: calls ++
      pauseAfter x.fragment ++ journal) wrong (whole + 1) := by
  have haccepted : Journal.accepted (begins x.zone index x.position x.fragment :: calls ++
      pauseAfter x.fragment ++ journal) = x.fragment.bytes ++ journal.accepted := by
    rw [Journal.accepted_append, accepted_delivered h]
  refine ⟨Nat.succ_le_succ hcomes.le_length, Nat.succ_inj.trans hcomes.eq_length_iff,
    ?_, ?_, ?_, fun hlt => ?_⟩
  · rw [Journal.begun_append, begun_delivered h, hcomes.begun]
    rfl
  · rw [Journal.pauses_append, Journal.pauses_append, hcomes.pauses, List.take_succ_cons,
      Placed.pauses_cons]
    exact congrArg (· ++ _ ++ _) h.pauses_eq
  · rw [haccepted, Placed.flatten_pieces_take_succ]
    exact (List.prefix_append_right_inj _).mpr hcomes.accepted
  · rw [haccepted, Placed.flatten_pieces_take_succ, List.length_append, List.length_append]
    exact Nat.add_lt_add_left (hcomes.length_lt (Nat.lt_of_succ_lt_succ hlt)) _

/-- **Every row comes to some fragment.** -/
theorem exists_comesTo (h : Row row journal wrong) : ∃ whole, ComesTo row journal wrong whole := by
  induction h with
  | done =>
      exact ⟨0, Nat.le_refl _, iff_of_true rfl rfl, rfl, rfl, List.prefix_rfl,
        fun hlt => absurd hlt (Nat.lt_irrefl _)⟩
  | quiet h _ ih =>
      obtain ⟨whole, hcomes⟩ := ih
      exact ⟨whole, hcomes.after_quiet h⟩
  | failed h hmore => exact ⟨0, comesTo_failed h hmore⟩
  | next h _ ih =>
      obtain ⟨whole, hcomes⟩ := ih
      exact ⟨whole + 1, hcomes.after_delivered h⟩

/-- A fragment was delivered whole exactly if all up to its end was accepted. -/
theorem ComesTo.flatten_prefix_iff {whole i : Nat} (h : ComesTo row journal wrong whole)
    (hi : i < row.length) :
    ((Placed.pieces row).take (i + 1)).flatten <+: journal.accepted ↔ i < whole := by
  have hmono : ∀ {m n : Nat}, m ≤ n →
      ((Placed.pieces row).take m).flatten <+: ((Placed.pieces row).take n).flatten := by
    intro m n hmn
    obtain ⟨k, rfl⟩ := Nat.exists_eq_add_of_le hmn
    rw [List.take_add, List.flatten_append]
    exact List.prefix_append _ _
  constructor
  · intro hprefix
    refine Nat.lt_of_not_le fun hle => ?_
    have hlt := h.length_lt (Nat.lt_of_le_of_lt hle hi)
    have hnext := (hmono (Nat.succ_le_succ hle)).length_le
    exact Nat.lt_irrefl _ (Nat.lt_of_lt_of_le hlt (Nat.le_trans hnext hprefix.length_le))
  · exact fun hlt => (hmono hlt).trans h.accepted

end Row

/-- A call offers what is not yet accepted of the piece last begun: that piece goes on behind all
that was accepted, and what was accepted covers the pieces ahead of it. -/
def OffersRest (pieces : List Bytes) (before : Journal) (offered : Bytes) : Prop :=
  ∃ k < pieces.length, before.begun.length = k + 1 ∧ offered ≠ [] ∧
    before.accepted ++ offered = (pieces.take (k + 1)).flatten ∧
    (pieces.take k).flatten <+: before.accepted

/-- The calls that deliver the first fragment offer what of it is not yet accepted. -/
theorem eachWrite_begins {x : Placed} {row : List Placed} {index : Nat} {calls : Journal}
    {outcome : Nat × Option Failure}
    (h : Delivery .acceptedNothing x.fragment.bytes calls outcome) :
    Journal.EachWrite (OffersRest (Placed.pieces (x :: row)))
      (begins x.zone index x.position x.fragment :: calls) := by
  refine Journal.eachWrite_cons_iff.mpr ⟨fun _ _ hwrite => ?_, h.eachWrite.mono ?_⟩
  · cases hwrite
  · rintro before offered ⟨hbegun, hne, hrest⟩
    refine ⟨0, Nat.succ_pos _, congrArg (List.length <| x.view :: ·) hbegun, hne, ?_,
      List.nil_prefix⟩
    exact hrest.trans (List.append_nil _).symm

/-- What is offered behind a fragment that was delivered is the rest of one of the others. -/
theorem OffersRest.after_delivered {x : Placed} {row : List Placed} {index n : Nat}
    {calls before : Journal} {offered : Bytes}
    (hrest : OffersRest (Placed.pieces row) before offered)
    (h : Delivery .acceptedNothing x.fragment.bytes calls (n, none)) :
    OffersRest (Placed.pieces (x :: row)) (begins x.zone index x.position x.fragment :: calls ++
      pauseAfter x.fragment ++ before) offered := by
  obtain ⟨k, hk, hbegun, hne, hoffered, hahead⟩ := hrest
  refine ⟨k + 1, Nat.succ_lt_succ hk, ?_, hne, ?_, ?_⟩
  · rw [Journal.begun_append, Row.begun_delivered h, List.length_append, hbegun]
    exact Nat.add_comm 1 (k + 1)
  · rw [Journal.accepted_append, Row.accepted_delivered h, List.append_assoc, hoffered,
      Placed.flatten_pieces_take_succ]
  · rw [Journal.accepted_append, Row.accepted_delivered h, Placed.flatten_pieces_take_succ]
    exact (List.prefix_append_right_inj _).mpr hahead

/-- **Every call of a row offers what of one fragment is not yet accepted.** -/
theorem Row.eachWrite {row : List Placed} {journal : Journal} {wrong : Option Failure}
    (h : Row row journal wrong) : journal.EachWrite (OffersRest (Placed.pieces row)) := by
  induction h with
  | done => exact Journal.eachWrite_of_offers rfl
  | quiet h _ ih =>
      refine Journal.eachWrite_append_iff.mpr ⟨Journal.eachWrite_of_offers h.offers, ?_⟩
      refine ih.mono fun before offered hrest => ?_
      rw [OffersRest, Journal.begun_append, Journal.accepted_append, h.begun, h.accepted]
      exact hrest
  | failed h hmore =>
      exact Journal.eachWrite_append_iff.mpr
        ⟨eachWrite_begins h, Journal.eachWrite_of_offers hmore.offers⟩
  | next h _ ih =>
      refine Journal.eachWrite_append_iff.mpr
        ⟨Journal.eachWrite_append_iff.mpr ⟨eachWrite_begins h, ?_⟩, ?_⟩
      · exact Journal.eachWrite_of_offers (offers_pauseAfter _)
      · exact ih.mono fun _ _ hrest => hrest.after_delivered h

end SplitHello

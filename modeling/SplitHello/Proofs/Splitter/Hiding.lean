import SplitHello.Proofs.Fragment.Size
import SplitHello.Proofs.Splitter.Send

/-!
# Proofs/Splitter/Hiding — the host name never leaves in one write

The zone ahead of the name may be offered whole, but it does not hold the name; the fragments of
the other zones, and the ends of them that are offered again, are too short to hold it.  Where the
bytes are not cut up the name does not stand in them in one piece.

* `not_infix_of_mem_cut` — no end of a fragment holds the name if the zones are cut finely enough;
* `InFragments.hides_name` — nothing that a send in fragments offers does;
* `not_infix_offers` — nothing that the first send offers holds the name.
-/

namespace SplitHello.Splitter

/-- **No end of a fragment holds the name** if the zones from the name on are cut finely enough. -/
theorem not_infix_of_mem_cut {policy : Policy} {bytes name : Bytes} {zones : Zones}
    (haround : Zones.around bytes name = some zones)
    (hsni : max 1 policy.sni.max.toNat < name.length)
    (hafter : max 1 policy.afterSni.max.toNat < name.length)
    {zone : String × Bytes × Interval} (hzone : zone ∈ zonePlan policy zones)
    {delays : Interval} {words : Words} {x : Fragment}
    (hx : x ∈ Fragment.cut zone.2.2 delays words zone.2.1) {offered : Bytes}
    (hoffered : offered <:+ x.bytes) : ¬ name <:+: offered := by
  intro hinfix
  have hin : name <:+: x.bytes := hinfix.trans hoffered.isInfix
  have hlen : name.length ≤ max 1 zone.2.2.max.toNat :=
    Nat.le_trans hin.length_le (Fragment.length_le_of_mem_cut hx)
  rw [zonePlan, List.mem_cons, List.mem_cons, List.mem_singleton] at hzone
  rcases hzone with rfl | rfl | rfl
  · -- fragments of any length are allowed here, but the zone does not hold the name
    exact not_infix_before haround (hin.trans (Fragment.infix_of_mem_cut hx))
  · exact absurd hsni (Nat.not_lt.mpr hlen)
  · exact absurd hafter (Nat.not_lt.mpr hlen)

variable {τ : Type} {s : Splitter τ} {bytes : Bytes} {hello : ClientHello} {name : Bytes}

/-- **A send in fragments offers nothing that holds the name.** -/
theorem InFragments.hides_name {journal : Journal} {answer : Except PartialWrite Nat}
    (h : InFragments s bytes journal answer)
    (hread : (readHello (.ofBytes bytes)).result = .ok hello) (hname : hello.sni = some name)
    (hsni : max 1 s.policy.sni.max.toNat < name.length)
    (hafter : max 1 s.policy.afterSni.max.toNat < name.length) :
    ∀ offered ∈ journal.offers, ¬ name <:+: offered := by
  intro offered hmem
  obtain ⟨hello', name', zones, notes, sent, _, hread', hname', haround, hsending, rfl, -⟩ := h
  obtain rfl : hello = hello' := Except.ok.inj (hread.symm.trans hread')
  obtain rfl : name = name' := Option.some.inj (hname.symm.trans hname')
  rw [Journal.offers_append, Journal.offers_map_note, List.nil_append] at hmem
  obtain ⟨zone, hzone, words, x, hx, hsuffix⟩ := hsending.offers_suffix hmem
  exact not_infix_of_mem_cut haround hsni hafter hzone hx hsuffix

/-- Bytes that do not hold the name of their hello in one piece cannot be cut up. -/
theorem not_cuttable_of_not_infix (hread : (readHello (.ofBytes bytes)).result = .ok hello)
    (hname : hello.sni = some name) (habsent : ¬ name <:+: bytes) : ¬ Cuttable bytes := by
  rintro ⟨hello', name', hread', hname', -, hin⟩
  obtain rfl : hello = hello' := Except.ok.inj (hread.symm.trans hread')
  obtain rfl : name = name' := Option.some.inj (hname.symm.trans hname')
  exact habsent hin

/-- **Nothing that the first send offers holds the host name** of the hello that can be read off
it, however the transport answers, if fragments from the name on are shorter than the name. -/
theorem not_infix_offers [Transport τ] [LawfulTransport τ] (hstarted : s.started = false)
    (hread : (readHello (.ofBytes bytes)).result = .ok hello)
    (hname : hello.sni = some name) (hne : name ≠ [])
    (hsni : max 1 s.policy.sni.max.toNat < name.length)
    (hafter : max 1 s.policy.afterSni.max.toNat < name.length) :
    ∀ offered ∈ (s.send bytes).journal.offers, ¬ name <:+: offered := by
  by_cases hinfix : name <:+: bytes
  · have hc : Cuttable bytes := ⟨hello, name, hread, hname, hne, hinfix⟩
    exact (send_of_cuttable hstarted hc).hides_name hread hname hsni hafter
  · intro offered hmem
    have hnot := not_cuttable_of_not_infix hread hname hinfix
    -- the only thing offered is the bytes themselves
    rw [← Journal.offers_calls, (passedOn_send fun h => hnot h.2).calls] at hmem
    obtain rfl : offered = bytes := List.mem_singleton.mp hmem
    exact hinfix

/-- A transport that accepts three bytes, is interrupted, accepts one byte a call for a while and
then breaks. -/
def breaksLate : ScriptedTransport where
  writes := ⟨[.moves 3, .fails (.io ⟨.interrupted, "interrupted"⟩)] ++
    List.replicate 67 (.moves 1) ++ [.fails (.io ⟨.brokenPipe, "broken pipe"⟩)], none⟩
  flushes := .free
  source := .ofBytes []
  controls := none

/-- The name in the sample hello. -/
def sampleName : Bytes := Report.sampleHost.toUTF8.toList

/-- The hello that is read off the sample, sent in one record. -/
def sampleHello : ClientHello :=
  match (readHello (.ofBytes sampleWrite)).result with
  | .ok hello => hello
  | .error _ => .empty

/-- The name of the sample hello is hidden from a transport that breaks in the middle of it. -/
theorem not_infix_offers_breaksLate :
    let s := (Splitter.new breaksLate .default (.splitMix 0)).state
    sampleHello.sni = some sampleName ∧ 20 ≤ (s.send sampleWrite).journal.offers.length ∧
      ∀ offered ∈ (s.send sampleWrite).journal.offers, ¬ sampleName <:+: offered := by
  intro s
  have hread : (readHello (.ofBytes sampleWrite)).result = .ok sampleHello := by decide +kernel
  have hname : sampleHello.sni = some sampleName := by decide +kernel
  exact ⟨hname, by decide +kernel,
    not_infix_offers rfl hread hname (by decide +kernel) (by decide +kernel) (by decide +kernel)⟩

end SplitHello.Splitter

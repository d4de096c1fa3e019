import SplitHello.Proofs.Guarded.Reading
import SplitHello.Proofs.Splitter.Hiding

/-!
# Proofs/Guarded/Sending — sending with guarded operations

A first write is cut around its name at places that are found among its windows, its zones are
sliced fragment by fragment, and what a transport leaves of a fragment is sliced off.

* `around_eq_some` — a buffer is cut at places that it has;
* `deliver_eq_some` — what is left can be sliced off if no more is accepted than is offered;
* `writeFrom_eq_some` — every fragment is sliced inside its zone;
* `send_eq_some` — **sending uses no operation outside its domain**;
* `operations_in_domain` — nor does anything else.
-/

namespace SplitHello.Guarded

/-! ## Cutting around a name -/

/-- What stands at each place of a buffer, as far as `size` bytes reach; there is nothing to look at
without a size. -/
def windows (buffer : Bytes) (size : Nat) : Option (List Bytes) :=
  if size = 0 then none
  else some ((List.range (buffer.length + 1 - size)).map fun k => (buffer.drop k).take size)

/-- A buffer cut around the first occurrence of a name, which may not be empty. -/
def around (buffer name : Bytes) : Option (Option Zones) :=
  if name.isEmpty ∨ buffer.length < name.length then return none
  else do
    match (← windows buffer name.length).findIdx? (· = name) with
    | none => return none
    | some offset =>
        let (before, rest) ← splitAt buffer offset
        let (serverName, after) ← splitAt rest name.length
        return some ⟨before, serverName, after⟩

/-- **The first window that is the name is where it occurs first.** -/
theorem findIdx?_windows {buffer name : Bytes} (hname : name ≠ []) :
    ((List.range (buffer.length + 1 - name.length)).map fun k =>
      (buffer.drop k).take name.length).findIdx? (· = name) = firstOccurrence name buffer 0 := by
  have hwindow : ∀ k, (buffer.drop k).take name.length = name ↔ OccursAt name buffer k := fun k =>
    eq_comm.trans List.prefix_iff_eq_take.symm
  refine Option.ext fun k => ?_
  rw [List.findIdx?_eq_some_iff_getElem, firstOccurrence_eq_some_iff]
  simp only [List.getElem_map, List.getElem_range, List.length_map, List.length_range,
    decide_eq_true_eq, hwindow]
  constructor
  · rintro ⟨hlt, hocc, hfirst⟩
    exact ⟨k, by omega, (Nat.zero_add k).symm, hocc, hfirst⟩
  · rintro ⟨k, -, rfl, hocc, hfirst⟩
    have := hocc.add_length_le hname
    rw [Nat.zero_add]
    exact ⟨by omega, hocc, hfirst⟩

/-- **A buffer is cut at places that it has.** -/
theorem around_eq_some (buffer name : Bytes) :
    around buffer name = some (Zones.around buffer name) := by
  by_cases hskip : name.isEmpty ∨ buffer.length < name.length
  · have hnone : Zones.around buffer name = none := by
      refine around_eq_none_iff.mpr (hskip.imp List.isEmpty_iff.mp fun hlt hinfix => ?_)
      exact Nat.not_lt_of_le hinfix.length_le hlt
    rw [around, if_pos hskip, hnone]
    rfl
  · have hne : ¬ name.isEmpty := fun h => hskip (.inl h)
    have hname : name ≠ [] := fun h => hne (List.isEmpty_iff.mpr h)
    have hsize : name.length ≠ 0 := fun h => hname (List.length_eq_zero_iff.mp h)
    rw [around, if_neg hskip, windows, if_neg hsize, Zones.around, if_neg hne]
    simp only [Option.bind_eq_bind, Option.bind_some, findIdx?_windows hname]
    cases hfound : firstOccurrence name buffer 0 with
    | none => rfl
    | some offset =>
        obtain ⟨k, hk, rfl, hocc, -⟩ := firstOccurrence_eq_some_iff.mp hfound
        have hend := hocc.add_length_le hname
        have hrest : name.length ≤ (buffer.drop k).length := by
          rw [List.length_drop]
          omega
        simp only [Nat.zero_add, splitAt_eq_some hk, splitAt_eq_some hrest, Option.bind_some,
          ← List.prefix_iff_eq_take.mp hocc, List.drop_drop]
        rfl

/-! ## Writing a fragment -/

section Writing

open Transport FragmentWriter

variable {τ : Type} [Transport τ]

/-- A transport accepts no more than it is offered. -/
def AcceptsOffered (τ : Type) [Transport τ] : Prop :=
  ∀ (t : τ) (bytes : Bytes) (n : Nat), (write t bytes).result = .ok n → n ≤ bytes.length

/-- Write `bytes` until all of them are accepted, repeating interrupted writes. -/
def deliver (turns : Nat) (refused : IoError) (t : τ) (bytes : Bytes) :
    Option (Reply τ (Nat × Option Failure)) :=
  match turns with
  | 0 => none
  | turns + 1 =>
      if bytes = [] then return ⟨(0, none), t, []⟩
      else
        let reply := write t bytes
        match reply.result with
        | .error failure =>
            if failure.isInterrupted then
              return (← deliver turns refused reply.state bytes).after reply.journal
            else return ⟨(0, some failure), reply.state, reply.journal⟩
        | .ok n =>
            if n = 0 then return ⟨(0, some (.io refused)), reply.state, reply.journal⟩
            else do
              let rest ← slice bytes n bytes.length
              let later ← deliver turns refused reply.state rest
              return (later.map fun done => (n + done.1, done.2)).after reply.journal

/-- **What a transport leaves can be sliced off** if it accepts no more than it is offered; and
every turn leaves fewer bytes, or fewer interruptions to come. -/
theorem deliver_eq_some (hfits : AcceptsOffered τ) (refused : IoError) (t : τ) (bytes : Bytes)
    {turns : Nat} (hturns : bytes.length + patience t < turns) :
    deliver turns refused t bytes = some (Transport.deliver refused t bytes) := by
  obtain ⟨turns, rfl⟩ := Nat.exists_eq_add_one_of_ne_zero (Nat.ne_zero_of_lt hturns)
  fun_induction Transport.deliver refused t bytes generalizing turns with
  | case1 t =>
      rw [deliver, if_pos rfl]
      rfl
  | case2 t bytes hb reply failure hr hi hless ih =>
      have hless : patience reply.state < patience t := hless
      obtain ⟨turns, rfl⟩ : ∃ later, turns = later + 1 :=
        Nat.exists_eq_add_one_of_ne_zero (by omega)
      have hlater := ih turns (by omega)
      rw [deliver, if_neg hb]
      change (write t bytes).result = .error failure at hr
      change deliver (turns + 1) refused (write t bytes).state bytes = _ at hlater
      simp only [hr, if_pos hi, hlater]
      rfl
  | case3 t bytes hb reply failure hr hi =>
      rw [deliver, if_neg hb]
      change (write t bytes).result = .error failure at hr
      simp only [hr, if_neg hi]
      rfl
  | case4 t bytes hb reply hr =>
      rw [deliver, if_neg hb]
      change (write t bytes).result = .ok 0 at hr
      simp only [hr]
      rfl
  | case5 t bytes hb reply n hr hn hless ih =>
      have hpos := List.length_pos_iff.mpr hb
      have hless : patience reply.state ≤ patience t := hless
      obtain ⟨turns, rfl⟩ : ∃ later, turns = later + 1 :=
        Nat.exists_eq_add_one_of_ne_zero (by omega)
      have hlater := ih turns (by rw [List.length_drop]; omega)
      rw [deliver, if_neg hb]
      change (write t bytes).result = .ok n at hr
      change deliver (turns + 1) refused (write t bytes).state (bytes.drop n) = _ at hlater
      simp only [hr, if_neg hn, slice_rest (hfits t bytes n hr), Option.bind_eq_bind,
        Option.bind_some, hlater]
      rfl

/-! ## Writing a zone -/

/-- A number from an interval, which must hold one if a word is drawn for it. -/
def sample (iv : Interval) (words : Words) : Option (UInt64 × Words) :=
  if iv.isSingle then return (iv.min, words)
  else if iv.min ≤ iv.max then return iv.sample words
  else none

/-- **There is always a number to draw.** -/
theorem sample_eq_some (iv : Interval) (words : Words) :
    sample iv words = some (iv.sample words) := by
  rw [sample, Interval.sample, if_pos iv.min_le_max]
  split <;> rfl

/-- Write a zone of which `index` fragments are written, with `position` bytes. -/
def writeFrom (turns : Nat) (zone : String) (sizes : Interval) (bytes : Bytes)
    (index position : Nat) (writer : FragmentWriter τ) :
    Option (Reply (FragmentWriter τ) (Option Failure)) :=
  match turns with
  | 0 => none
  | turns + 1 =>
      if position < bytes.length then do
        let (drawn, words) ← sample sizes writer.words
        let length ← clamp drawn.toNat 1 (← minus bytes.length position)
        let (delay, words) ← sample writer.delayMs words
        let x : Fragment := ⟨← slice bytes position (position + length), delay, words⟩
        let reply ← deliver (x.bytes.length + patience writer.transport + 1) .acceptedNothing
          writer.transport x.bytes
        let begun := begins zone (index + 1) position x :: reply.journal
        match reply.result.2 with
        | some failure => return ⟨some failure, writer.advance x reply, begun⟩
        | none =>
            let later ← writeFrom turns zone sizes bytes (index + 1) (position + length)
              (writer.advance x reply)
            return later.after (begun ++ pauseAfter x)
      else return ⟨none, writer, [.note (.zoneWritten zone index position)]⟩

/-- **The bounds of a fragment's length are in order, and it ends inside its zone.** -/
theorem exists_clamp (n : Nat) (first : UInt8) (rest : Bytes) : ∃ length,
    clamp n 1 (first :: rest).length = some length ∧ length ≤ (first :: rest).length ∧
      (first :: rest).take length = first :: rest.take (n - 1) ∧
      (first :: rest).drop length = rest.drop (n - 1) := by
  have hlength : max 1 (min n (rest.length + 1)) = min (n - 1) rest.length + 1 := by omega
  refine ⟨min (n - 1) rest.length + 1, ?_, ?_, ?_, ?_⟩
  · rw [List.length_cons, clamp_eq_some (Nat.le_add_left 1 rest.length), hlength]
  · exact Nat.succ_le_succ (Nat.min_le_right _ _)
  · rw [List.take_succ_cons, ← List.take_eq_take_min]
  · rw [List.drop_succ_cons, ← List.drop_eq_drop_min]

/-- **Every fragment is sliced inside its zone**, and leaves less of it. -/
theorem writeFrom_eq_some (hfits : AcceptsOffered τ) (zone : String) (sizes : Interval)
    (bytes : Bytes) (index position : Nat) (writer : FragmentWriter τ) {turns : Nat}
    (hposition : position ≤ bytes.length) (hturns : bytes.length - position < turns) :
    writeFrom turns zone sizes bytes index position writer =
      some (writer.writeFragments zone index position
        (Fragment.cut sizes writer.delayMs writer.words (bytes.drop position))) := by
  obtain ⟨turns, rfl⟩ := Nat.exists_eq_add_one_of_ne_zero (Nat.ne_zero_of_lt hturns)
  generalize hdelays : writer.delayMs = delays
  generalize hwords : writer.words = words
  generalize hleft : bytes.drop position = left
  -- the fragments that are left are cut as one goes on
  fun_induction Fragment.cut sizes delays words left generalizing index position writer turns with
  | case1 words =>
      have hlong := List.drop_eq_nil_iff.mp hleft
      rw [writeFrom, if_neg (Nat.not_lt_of_le hlong)]
      rfl
  | case2 words first rest size delay more ih =>
      obtain ⟨length, hclamp, hlength, htake, hdrop⟩ := exists_clamp size.1.toNat first rest
      have hcount : bytes.length - position = (first :: rest).length := by
        rw [← hleft, List.length_drop]
      have hlt : position < bytes.length := by
        rw [List.length_cons] at hcount
        omega
      have hslice : slice bytes position (position + length) = some (first :: rest.take more) := by
        rw [slice_add (by omega), hleft, htake]
      have hsize : sample sizes words = some size := sample_eq_some sizes words
      have hdelay : sample delays size.2 = some delay := sample_eq_some delays size.2
      have hmore : (first :: rest.take more).length = length := by
        rw [← htake, List.length_take_of_le hlength]
      have hpos : 0 < length := hmore ▸ Nat.succ_pos _
      obtain ⟨turns, rfl⟩ : ∃ later, turns = later + 1 :=
        Nat.exists_eq_add_one_of_ne_zero (by omega)
      have hnext := fun reply => ih (index + 1) (position + length)
        (writer.advance ⟨first :: rest.take more, delay.1, delay.2⟩ reply) (by omega) turns
        (by omega) hdelays rfl (by rw [← List.drop_drop, hleft, hdrop])
      rw [writeFrom, if_pos hlt, hwords, hdelays, writeFragments]
      simp only [hsize, hdelay, minus_eq_some hposition, hcount, hclamp, hslice, hmore, hnext,
        deliver_eq_some hfits _ _ _ (Nat.lt_succ_self _), Option.bind_eq_bind, Option.bind_some]
      cases (Transport.deliver .acceptedNothing writer.transport
        (first :: rest.take more)).result.2 <;> rfl

/-! ## Sending -/

open Splitter (noteFailure)

/-- Write zones one after the other, up to the first that fails. -/
def writeZones (writer : FragmentWriter τ) :
    List (String × Bytes × Interval) → Option (Reply (FragmentWriter τ) (Option Failure))
  | [] => return ⟨none, writer, []⟩
  | (zone, bytes, sizes) :: later => do
      let reply ← writeFrom (bytes.length + 1) zone sizes bytes 0 0 writer
      match reply.result with
      | none => return (← writeZones reply.state later).after reply.journal
      | some failure =>
          return ⟨some failure, reply.state,
            reply.journal ++ noteFailure (.fragmentFailed zone reply.state.written) failure⟩

/-- Send zones fragment by fragment. -/
def sendZones (s : Splitter τ) (zones : Zones) :
    Option (Reply (Splitter τ) (Except PartialWrite Nat)) := do
  let writer : FragmentWriter τ := ⟨s.transport, s.words, s.policy.delayMs, 0⟩
  let reply ← writeZones writer (Splitter.zonePlan s.policy zones)
  let after := { s with transport := reply.state.transport }.withWords reply.state.words
  match reply.result with
  | none => return ⟨.ok reply.state.written, after, reply.journal⟩
  | some failure => return ⟨.error ⟨reply.state.written, failure⟩, after, reply.journal⟩

/-- The zones of a first write, if it is to be fragmented, and the notes made on the way. -/
def opening (bytes : Bytes) : Option (Option Zones × List Note) := do
  let reply ← RecordReader.new.readHello (.ofBytes bytes)
  match reply.result with
  | .error e => return (none, reply.journal.notes ++ [.notClientHello e])
  | .ok hello =>
      match ← hello.sni.elim (some none) (around bytes) with
      | none => return (none, reply.journal.notes ++ [.serverNameMissing hello.serverName])
      | some zones =>
          return (some zones, reply.journal.notes ++
            [.splitting hello.serverName zones.offset zones.before.length zones.after.length])

/-- Send the first bytes: in fragments if they are a hello that can be cut, else as they are. -/
def sendFirst (s : Splitter τ) (bytes : Bytes) :
    Option (Reply (Splitter τ) (Except PartialWrite Nat)) := do
  let (zones, notes) ← opening bytes
  match zones with
  | some zones => return (← sendZones s zones).after (notes.map .note)
  | none => return (s.offerOnce bytes).after (notes.map .note)

/-- Send bytes. -/
def send (s : Splitter τ) (bytes : Bytes) :
    Option (Reply (Splitter τ) (Except PartialWrite Nat)) := do
  let begun := Event.note (.beganWrite bytes.length (!s.started))
  let reply ←
    if s.started then some (s.offerOnce bytes) else sendFirst { s with started := true } bytes
  let died := aborts PartialWrite.source reply.result
  return (reply.within fun after => after.releaseWrite died).after [begun]

/-- **The zones that are found are those of the first occurrence of the name.** -/
theorem opening_eq_some (bytes : Bytes) : opening bytes = some (Splitter.opening bytes) := by
  obtain ⟨result, _, _, journal, hread, hread', -⟩ :=
    (RecordReader.agrees_readHello RecordReader.standsFor_new (.ofBytes bytes)).exists_reply
  rw [opening, hread, Splitter.opening, SplitHello.readHello, hread']
  cases result with
  | error e => rfl
  | ok hello =>
      have haround : hello.sni.elim (some none) (around bytes) =
          some (hello.sni.bind (Zones.around bytes)) := by
        cases hello.sni with
        | none => rfl
        | some name => exact around_eq_some bytes name
      simp only [Option.bind_eq_bind, Option.bind_some, haround]
      cases hello.sni.bind (Zones.around bytes) <;> rfl

theorem writeZones_eq_some (hfits : AcceptsOffered τ) :
    ∀ (writer : FragmentWriter τ) (plan : List (String × Bytes × Interval)),
      writeZones writer plan = some (Splitter.writeZones writer plan)
  | _, [] => rfl
  | writer, (zone, bytes, sizes) :: later => by
      have hturns : bytes.length - 0 < bytes.length + 1 := Nat.lt_succ_self _
      rw [writeZones, writeFrom_eq_some hfits zone sizes bytes 0 0 writer (Nat.zero_le _) hturns,
        List.drop_zero, Splitter.writeZones, writeZone]
      simp only [Option.bind_eq_bind, Option.bind_some, writeZones_eq_some hfits]
      cases (writer.writeFragments zone 0 0
        (Fragment.cut sizes writer.delayMs writer.words bytes)).result <;> rfl

theorem sendZones_eq_some (hfits : AcceptsOffered τ) (s : Splitter τ) (zones : Zones) :
    sendZones s zones = some (s.sendZones zones) := by
  rw [sendZones, writeZones_eq_some hfits, Splitter.sendZones]
  obtain ⟨_ | failure, writer, journal⟩ := Splitter.writeZones
    (⟨s.transport, s.words, s.policy.delayMs, 0⟩ : FragmentWriter τ)
    (Splitter.zonePlan s.policy zones) <;> rfl

theorem sendFirst_eq_some (hfits : AcceptsOffered τ) (s : Splitter τ) (bytes : Bytes) :
    sendFirst s bytes = some (s.sendFirst bytes) := by
  rw [sendFirst, opening_eq_some, Splitter.sendFirst]
  obtain ⟨_ | zones, notes⟩ := Splitter.opening bytes
  · rfl
  · simp only [Option.bind_eq_bind, Option.bind_some, sendZones_eq_some hfits]
    rfl

/-- **Sending uses no operation outside its domain.** -/
theorem send_eq_some (hfits : AcceptsOffered τ) (s : Splitter τ) (bytes : Bytes) :
    send s bytes = some (s.send bytes) := by
  rw [send, sendFirst_eq_some hfits, Splitter.send]
  cases s.started <;> rfl

/-! ## Every operation -/

open Reassembly (Request)

/-- **No operation is used outside its domain**: not in parsing any bytes or the records in them,
not in any run of calls on a reader over any sources, and not in any write on a splitter over a
transport that accepts no more than it is offered.  The guarded programs answer, and as the plain
ones do. -/
theorem operations_in_domain (hfits : AcceptsOffered τ) (data : Bytes) (source : Source)
    (calls : List (Request × Option Source)) (s : Splitter τ) (bytes : Bytes) :
    (parse data).run = some (ClientHello.parse data) ∧
      parseRecords data = some (ClientHello.parseRecords data) ∧
      Agrees RecordReader.Stands (each RecordReader.performWith (.new, source) calls)
        (Reply.each Reassembly.performWith (.new, source) calls) ∧
      send s bytes = some (s.send bytes) :=
  ⟨run_parse data, parseRecords_eq_some data, RecordReader.agrees_runs source calls,
    send_eq_some hfits s bytes⟩

end Writing

/-- A message is parsed, alone and in a record; a hello is read in small chunks, then a message that
is none, and then a header is refused that comes from another source; and a write is cut up into
fragments until the transport breaks. -/
theorem operations_in_domain_sample :
    let s := (Splitter.new Splitter.breaksLate .default (.splitMix 0)).state
    let calls : List (Reassembly.Request × Option Source) :=
      [(.hello, none), (.hello, none), (.record, some (.ofBytes [0x80, 0x2e, 1, 3, 1]))]
    (parse Report.sampleMessage.encode).run = some (.ok Splitter.sampleHello) ∧
      parseRecords sampleWrite = some (.ok Splitter.sampleHello) ∧
      (∃ replies,
        each RecordReader.performWith (.new, Reassembly.sampleStreamChunks) calls = some replies ∧
          replies.result.length = 3 ∧ replies.state.1.buffered = [7]) ∧
      ∃ reply, send s sampleWrite = some reply ∧ 20 ≤ reply.journal.offers.length := by
  intro s calls
  have inDomain := fun data => operations_in_domain
    (fun (_ : ScriptedTransport) _ _ h => LawfulTransport.accepted_le h) data
    Reassembly.sampleStreamChunks calls s sampleWrite
  obtain ⟨hparse, -⟩ := inDomain Report.sampleMessage.encode
  obtain ⟨-, hrecords, hruns, hsend⟩ := inDomain sampleWrite
  obtain ⟨answers, state, state', journal, heach, heach', hstands⟩ := hruns.exists_reply
  have hcount := Reply.length_result_each Reassembly.performWith
    (.new, Reassembly.sampleStreamChunks) calls
  have hbuffered : (Reply.each Reassembly.performWith (.new, Reassembly.sampleStreamChunks)
      calls).state.1.buffered = [7] := by decide +kernel
  rw [heach'] at hcount hbuffered
  refine ⟨hparse.trans (congrArg some ?_), hrecords.trans (congrArg some ?_),
    ⟨_, heach, hcount, hstands.1.buffered.trans hbuffered⟩, _, hsend, ?_⟩
  · decide +kernel
  · decide +kernel
  · decide +kernel

end SplitHello.Guarded

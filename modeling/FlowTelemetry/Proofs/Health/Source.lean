import FlowTelemetry.Health.SourceState
import Mathlib.Algebra.Ring.Nat

/-!
# What the state of a sender says

The state of a sender is brought up to date with one packet at a time, and
touches five numbers, two times and what is known of the counters. After any
number of packets each of these can be read off the packets themselves: the
numbers are counts and sums, the times are those of the packets at either end,
and the counters are known once there was a snapshot.

All numbers only ever grow, by an amount that depends on the packet alone, so
`run_measure` is the one induction that they share.
-/

namespace FlowTelemetry

/-- Whether a packet carries a snapshot. -/
def Packet.isStats (p : Packet) : Bool := p.snapshot?.isSome

/-- Whether a packet carries records, be they read or not. -/
def Packet.isData (p : Packet) : Bool := !p.isStats

/-- How many records there should be in a packet. -/
def Packet.setCount (p : Packet) : Nat := p.message.header.setCount.toNat

/-- Every number that is noted counts the message. -/
theorem SequenceState.total_update (q : SequenceState) (n : UInt32) :
    (q.update n).total = q.total + 1 := by
  simp only [update]
  cases q.last with
  | none => rfl
  | some last =>
    simp only
    split
    · rfl
    · split <;> rfl

/-- The messages that are counted are those whose numbers were noted. -/
theorem SequenceState.total_run (q : SequenceState) (ns : List UInt32) :
    (q.run ns).total = q.total + ns.length := by
  induction ns generalizing q with
  | nil => rfl
  | cons n ns ih =>
    show ((q.update n).run ns).total = _
    rw [ih, total_update, List.length_cons, Nat.add_assoc, Nat.add_comm 1]

namespace SourceState

/-- Takes note of one packet after the other. -/
def run (s : SourceState) (ps : List Packet) : SourceState := ps.foldl update s

/-- The state of a sender that has sent these packets and no others. There is
none without a packet. -/
def ofPackets : List Packet → Option SourceState
  | [] => none
  | p :: ps => some ((initial p.timestamp).run (p :: ps))

theorem ofPackets_eq_none_iff {ps : List Packet} : ofPackets ps = none ↔ ps = [] := by
  cases ps with
  | nil => exact iff_of_true rfl rfl
  | cons p ps => exact iff_of_false (fun h => nomatch h) (fun h => nomatch h)

/-! ## One packet -/

section Update

variable (s : SourceState) (p : Packet)

theorem firstTimestamp_update : (s.update p).firstTimestamp = s.firstTimestamp := by
  unfold update updateBody
  cases p.message.body <;> rfl

theorem lastTimestamp_update : (s.update p).lastTimestamp = p.timestamp := rfl

/-- Only a packet with records counts as one. -/
theorem dataPackets_update :
    (s.update p).dataPackets = s.dataPackets + if p.isData then 1 else 0 := by
  unfold update updateBody Packet.isData Packet.isStats Packet.snapshot?
  cases p.message.body <;> rfl

/-- Only a packet with a snapshot counts as one. -/
theorem statsPackets_update :
    (s.update p).statsPackets = s.statsPackets + if p.isStats then 1 else 0 := by
  unfold update updateBody Packet.isStats Packet.snapshot?
  cases p.message.body <;> rfl

/-- A packet with records counts for as many as its header says, and a packet
with a snapshot for none, whatever its header says. -/
theorem records_update :
    (s.update p).records = s.records + if p.isData then p.setCount else 0 := by
  unfold update updateBody Packet.isData Packet.isStats Packet.snapshot? Packet.setCount
  cases p.message.body <;> rfl

/-- The counters are known from the first snapshot on. -/
theorem isSome_counters_update :
    (s.update p).counters.isSome = (s.counters.isSome || p.isStats) := by
  unfold update updateBody Packet.isStats Packet.snapshot?
  cases p.message.body with
  | stats snapshot =>
    cases s.counters <;> rfl
  | records records => exact (Bool.or_false _).symm

end Update

/-! ## Any number of packets -/

section Run

variable (s : SourceState) (p : Packet) (ps : List Packet)

theorem run_cons : s.run (p :: ps) = (s.update p).run ps := rfl

/-- **A number that grows with each packet has grown by the measure of all of
them.** The hypotheses are those of a sum: nothing for no packets, and for one
packet more what that packet adds. -/
theorem run_measure (field : SourceState → Nat) (measure : List Packet → Nat)
    (hnil : measure [] = 0)
    (hcons : ∀ s p ps, field (s.update p) + measure ps = field s + measure (p :: ps)) :
    field (s.run ps) = field s + measure ps := by
  induction ps generalizing s with
  | nil => exact (congrArg (field s + ·) hnil).symm
  | cons p ps ih => rw [run_cons, ih, hcons]

theorem dataPackets_run : (s.run ps).dataPackets = s.dataPackets + ps.countP Packet.isData := by
  refine run_measure s ps (·.dataPackets) (·.countP Packet.isData) rfl fun s p ps => ?_
  rw [dataPackets_update, List.countP_cons, Nat.add_assoc, Nat.add_comm (ps.countP _)]

theorem statsPackets_run :
    (s.run ps).statsPackets = s.statsPackets + ps.countP Packet.isStats := by
  refine run_measure s ps (·.statsPackets) (·.countP Packet.isStats) rfl fun s p ps => ?_
  rw [statsPackets_update, List.countP_cons, Nat.add_assoc, Nat.add_comm (ps.countP _)]

theorem records_run :
    (s.run ps).records = s.records + ((ps.filter Packet.isData).map Packet.setCount).sum := by
  refine run_measure s ps (·.records)
    (fun ps => ((ps.filter Packet.isData).map Packet.setCount).sum) rfl fun s p ps => ?_
  rw [records_update, List.filter_cons, Nat.add_assoc]
  split
  · rw [List.map_cons, List.sum_cons]
  · rw [Nat.zero_add]

/-- What is known of the numbers of the messages comes from the numbers
alone. -/
theorem sequence_run :
    (s.run ps).sequence = s.sequence.run (ps.map (·.message.header.sequence)) := by
  induction ps generalizing s with
  | nil => rfl
  | cons p ps ih =>
    rw [run_cons, ih]
    rfl

theorem firstTimestamp_run : (s.run ps).firstTimestamp = s.firstTimestamp := by
  induction ps generalizing s with
  | nil => rfl
  | cons p ps ih => rw [run_cons, ih, firstTimestamp_update]

theorem lastTimestamp_run :
    (s.run ps).lastTimestamp = (ps.getLast?.map (·.timestamp)).getD s.lastTimestamp := by
  induction ps generalizing s with
  | nil => rfl
  | cons p ps ih =>
    rw [run_cons, ih, lastTimestamp_update, List.getLast?_cons]
    cases ps.getLast? <;> rfl

theorem isSome_counters_run :
    (s.run ps).counters.isSome = (s.counters.isSome || ps.any Packet.isStats) := by
  induction ps generalizing s with
  | nil => exact (Bool.or_false _).symm
  | cons p ps ih => rw [run_cons, ih, isSome_counters_update, List.any_cons, Bool.or_assoc]

end Run

/-- **A state sums up the packets it was made of.** Packets are taken in the
order in which they came, whatever their timestamps say. -/
structure Summarises (s : SourceState) (ps : List Packet) : Prop where
  first : ps.head?.map (·.timestamp) = some s.firstTimestamp
  last : ps.getLast?.map (·.timestamp) = some s.lastTimestamp
  data : s.dataPackets = ps.countP Packet.isData
  stats : s.statsPackets = ps.countP Packet.isStats
  total : s.sequence.total = s.dataPackets + s.statsPackets
  records : s.records = ((ps.filter Packet.isData).map Packet.setCount).sum
  counters : s.counters.isSome ↔ 0 < s.statsPackets

/-- Every packet carries either records or a snapshot. -/
theorem length_eq_countP_add_countP (ps : List Packet) :
    ps.length = ps.countP Packet.isData + ps.countP Packet.isStats := by
  rw [List.length_eq_countP_add_countP Packet.isStats, Nat.add_comm]
  refine congrArg (· + _) (List.countP_congr fun p _ => ?_)
  rw [decide_eq_true_iff]
  unfold Packet.isData
  rw [Bool.not_eq_true']
  exact iff_of_eq (Bool.not_eq_true _)

/-- The state of a sender sums up its packets. -/
theorem ofPackets_summarises {s : SourceState} {ps : List Packet} (h : ofPackets ps = some s) :
    s.Summarises ps := by
  cases ps with
  | nil => exact nomatch h
  | cons p ps =>
    obtain rfl := Option.some.inj h
    have hdata := (dataPackets_run (initial p.timestamp) (p :: ps)).trans (Nat.zero_add _)
    have hstats := (statsPackets_run (initial p.timestamp) (p :: ps)).trans (Nat.zero_add _)
    refine ⟨?_, ?_, hdata, hstats, ?_, ?_, ?_⟩
    · rw [firstTimestamp_run]
      rfl
    · rw [lastTimestamp_run, List.getLast?_cons]
      rfl
    · rw [sequence_run, SequenceState.total_run, List.length_map, hdata, hstats,
        length_eq_countP_add_countP]
      exact Nat.zero_add _
    · exact (records_run _ _).trans (Nat.zero_add _)
    · rw [isSome_counters_run, hstats, List.countP_pos_iff]
      exact List.any_eq_true

end SourceState

end FlowTelemetry

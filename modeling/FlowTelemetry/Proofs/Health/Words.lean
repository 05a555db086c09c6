import FlowTelemetry.Proofs.Health.Changes

/-!
# States in words of fixed length

What is kept about a sender are numbers that only grow, along with what its
sequence numbers and its snapshots have shown. A program that runs keeps all of
it in words of 64 bits. `updateWords?` takes note of a packet in that way, one
operation at a time, and has no result if any of them leaves its range.

Whether there is room for one more packet is plain to see from a state
(`HasRoom`). How much a number can have grown is known from the number of
packets, and it is the records that grow fastest, by 255 for each packet. So
2⁵⁶ packets can come before any word is full (`hasRoom_run`), and up to then a
state in words is the state that there is without them (`runWords?_eq_some`).
-/

namespace FlowTelemetry

namespace SourceState

/-- Takes note of what a packet carries, in words of 64 bits. -/
def updateBodyWords? (s : SourceState) (setCount : UInt8) : Body → Option SourceState
  | .stats snapshot => do
    let statsPackets ← Word.unsigned? (s.statsPackets + 1)
    let counters ← match s.counters with
      | none => some (.ofSnapshot snapshot)
      | some counters => counters.updateWords? snapshot
    return { s with statsPackets, counters := some counters }
  | .records _ => do
    let dataPackets ← Word.unsigned? (s.dataPackets + 1)
    let records ← Word.unsigned? (s.records + setCount.toNat)
    return { s with dataPackets, records }

/-- Takes note of a packet, in words of 64 bits. There is a result only if none
of the operations leaves the range of its words. -/
def updateWords? (s : SourceState) (p : Packet) : Option SourceState := do
  let header := p.message.header
  let noted ← s.updateBodyWords? header.setCount p.message.body
  let sequence ← s.sequence.updateWords? header.sequence
  return { noted with lastTimestamp := p.timestamp, sequence }

/-- Takes note of one packet after the other, in words of 64 bits. -/
def runWords? (s : SourceState) (ps : List Packet) : Option SourceState :=
  ps.foldlM updateWords? s

/-! ## Room for a packet -/

/-- **There is room for one more packet** in the words of a state. What is known
of the counters never needs more room than there is. -/
structure HasRoom (s : SourceState) : Prop where
  dataPackets : s.dataPackets + 1 < 2 ^ 64
  statsPackets : s.statsPackets + 1 < 2 ^ 64
  /-- A header says how many records there are in one octet. -/
  records : s.records + 255 < 2 ^ 64
  total : s.sequence.total + 1 < 2 ^ 64
  late : s.sequence.late + 1 < 2 ^ 64
  lost_low : -2 ^ 63 < s.sequence.lost
  lost_high : s.sequence.lost + 2 ^ 32 ≤ 2 ^ 63
  counters : ∀ c ∈ s.counters, ∃ first, c.Telescopes first

namespace HasRoom

variable {s : SourceState}

theorem updateBodyWords?_eq_some (h : s.HasRoom) (setCount : UInt8) (body : Body) :
    s.updateBodyWords? setCount body = some (s.updateBody setCount body) := by
  have hcount := setCount.toNat_lt
  have hrecords := h.records
  unfold updateBodyWords? updateBody
  cases body with
  | stats snapshot =>
    dsimp only
    rw [Word.unsigned?_eq_some h.statsPackets]
    cases hcounters : s.counters with
    | none => rfl
    | some counters =>
      obtain ⟨first, htelescopes⟩ := h.counters counters hcounters
      simp only [Option.bind_eq_bind, Option.bind_some, htelescopes.updateWords?_eq_some]
      rfl
  | records rs =>
    dsimp only
    rw [Word.unsigned?_eq_some h.dataPackets, Word.unsigned?_eq_some (by omega)]
    rfl

/-- A packet is noted in words as it is without them. -/
theorem updateWords?_eq_some (h : s.HasRoom) (p : Packet) :
    s.updateWords? p = some (s.update p) := by
  have hsequence := SequenceState.updateWords?_eq_some p.message.header.sequence h.total h.late
    h.lost_low h.lost_high
  unfold updateWords?
  dsimp only
  rw [h.updateBodyWords?_eq_some, hsequence]
  rfl

end HasRoom

/-! ## How much there can be -/

/-- The records are at most 255 for each packet. -/
theorem sum_setCount_le (ps : List Packet) :
    ((ps.filter Packet.isData).map Packet.setCount).sum ≤ 255 * ps.length := by
  induction ps with
  | nil => exact Nat.le_refl 0
  | cons p ps ih =>
    have hcount : p.setCount < 256 := p.message.header.setCount.toNat_lt
    rw [List.filter_cons, List.length_cons]
    split
    · rw [List.map_cons, List.sum_cons]
      omega
    · omega

/-- **Fewer than 2⁵⁶ packets leave room** for another one. -/
theorem hasRoom_run (t : Timestamp) {ps : List Packet} (h : ps.length < 2 ^ 56) :
    ((initial t).run ps).HasRoom := by
  have hdata := (dataPackets_run (initial t) ps).trans (Nat.zero_add _)
  have hstats := (statsPackets_run (initial t) ps).trans (Nat.zero_add _)
  have hrecords := (records_run (initial t) ps).trans (Nat.zero_add _)
  have hdata_le : ps.countP Packet.isData ≤ ps.length := List.countP_le_length
  have hstats_le : ps.countP Packet.isStats ≤ ps.length := List.countP_le_length
  have hrecords_le := sum_setCount_le ps
  have hsequence : ((initial t).run ps).sequence =
      SequenceState.initial.run (ps.map (·.message.header.sequence)) := sequence_run _ _
  obtain ⟨htotal, hlate, hlow, hhigh⟩ :=
    SequenceState.run_bounds (ps.map (·.message.header.sequence))
  rw [List.length_map] at htotal hlate
  rw [← hsequence] at htotal hlate hlow hhigh
  have hcounters : ∀ c ∈ ((initial t).run ps).counters, ∃ first, c.Telescopes first := by
    intro c hc
    exact CounterState.telescopes_of_resume ((counters_run (initial t) ps).symm.trans hc)
  exact ⟨by omega, by omega, by omega, by omega, by omega, by omega, by omega, hcounters⟩

/-- **No operation leaves its range** in a run of at most 2⁵⁶ packets. -/
theorem runWords?_eq_some (t : Timestamp) {ps : List Packet} (h : ps.length ≤ 2 ^ 56) :
    (initial t).runWords? ps = some ((initial t).run ps) := by
  refine Word.foldlM_eq_some fun front p hfront => ?_
  have hlength := hfront.length_le
  rw [List.length_append, List.length_singleton] at hlength
  exact (hasRoom_run t (Nat.lt_of_lt_of_le hlength h)).updateWords?_eq_some p

end SourceState

/-- **A tracker can be kept in words.** The state that a tracker has for a sender
is the one that the packets of this sender have in words of 64 bits, if there are
at most 2⁵⁶ of them, however many packets of others there are. -/
theorem Tracker.get?_run_words {ps : List Packet} {source : Endpoint} {p : Packet}
    {later : List Packet} (hown : own source ps = p :: later)
    (h : (p :: later).length ≤ 2 ^ 56) :
    (empty.run ps).get? source = (SourceState.initial p.timestamp).runWords? (p :: later) := by
  rw [get?_run_empty, hown, SourceState.runWords?_eq_some _ h]
  rfl

end FlowTelemetry

import FlowTelemetry.Collector.Packet
import FlowTelemetry.Health.Counters
import FlowTelemetry.Health.Sequence

/-!
# The state of a sender

All that is kept about a sender can be brought up to date with one packet at
a time. The number of records is taken from the headers, so that it comes out
right even if the records themselves are not read. The times are those of the
packets that came first and last, which need not be the earliest and the
latest.
-/

namespace FlowTelemetry

/-- What the packets of a sender have shown. -/
structure SourceState where
  /-- The time of the packet that came first. -/
  firstTimestamp : Timestamp
  /-- The time of the packet that came last. -/
  lastTimestamp : Timestamp
  /-- How many packets had records. -/
  dataPackets : Nat
  /-- How many packets had a snapshot. -/
  statsPackets : Nat
  /-- How many records there should have been in all. -/
  records : Nat
  sequence : SequenceState
  /-- What the snapshots have shown, if there were any. -/
  counters : Option CounterState
  deriving DecidableEq, Repr

namespace SourceState

/-- The state before the first packet, which has the given time. -/
def initial (t : Timestamp) : SourceState :=
  { firstTimestamp := t, lastTimestamp := t, dataPackets := 0, statsPackets := 0, records := 0
    sequence := .initial, counters := none }

/-- Takes note of what a packet carries. -/
def updateBody (s : SourceState) (setCount : UInt8) : Body → SourceState
  | .stats snapshot =>
    { s with
      statsPackets := s.statsPackets + 1
      counters := match s.counters with
        | none => some (.ofSnapshot snapshot)
        | some counters => some (counters.update snapshot) }
  | .records _ =>
    { s with dataPackets := s.dataPackets + 1, records := s.records + setCount.toNat }

/-- Takes note of a packet. -/
def update (s : SourceState) (p : Packet) : SourceState :=
  let header := p.message.header
  { s.updateBody header.setCount p.message.body with
    lastTimestamp := p.timestamp
    sequence := s.sequence.update header.sequence }

/-- The time from the first packet to the last. -/
def duration (s : SourceState) : Duration := s.lastTimestamp.since s.firstTimestamp

end SourceState

end FlowTelemetry

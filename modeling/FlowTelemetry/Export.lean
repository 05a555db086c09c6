import FlowTelemetry.Collector.Packet
import FlowTelemetry.Health.Summary

/-!
# Exported values

Packets, flows and summaries are handed to other programs as trees of plain
values: numbers, texts, lists and objects with named members. `Exported` is
the type of these trees, and here is the tree for each type. How a tree is
written down is up to the receiver.

A timestamp is exported as it is shown, in local time: year, day of the year,
hour, minute, second and nanosecond, and then the hours, minutes and seconds
of the offset. A duration is exported as its complete seconds and the rest
in nanoseconds.
-/

namespace FlowTelemetry

/-- A tree of plain values. -/
inductive Exported where
  | absent
  | integer (n : Int)
  | real (x : Float)
  | text (s : String)
  | list (items : List Exported)
  /-- Named members, in the order in which they are written. -/
  | object (members : List (String × Exported))

namespace Exported

/-- The value in the given form, or its absence. -/
def optional {α : Type} (form : α → Exported) : Option α → Exported
  | none => absent
  | some a => form a

/-- A natural number. -/
def ofNat (n : Nat) : Exported := integer n

/-- Nine numbers: the local date, the local time of day and the offset. -/
def ofTimestamp (t : Timestamp) : Exported :=
  let shown := t.toLocal
  let (hours, minutes, seconds) := t.offsetParts
  list (.integer shown.date.year ::
    [shown.date.dayIndex + 1, shown.hour, shown.minute, shown.second, shown.nanosecond].map
      ofNat ++ [.integer hours, .integer minutes, .integer seconds])

/-- The complete seconds and the nanoseconds beside them. -/
def ofDuration (d : Duration) : Exported :=
  list [.integer d.wholeSeconds, .integer d.subseconds]

/-- The address in its dotted form and the port. -/
def ofEndpoint (e : Endpoint) : Exported :=
  object [("ip", text e.address.text), ("port", ofNat e.port.toNat)]

/-- The letter V and the number of the version. -/
def ofVersion (v : Version) : Exported := text ("V" ++ v.text)

/-- The four fields, the flags as one number. -/
def ofHeader (h : Header) : Exported :=
  object [("version", ofVersion h.version), ("sets_count", ofNat h.setCount.toNat),
    ("flags", ofNat h.flags.bits.toNat), ("sequence_number", ofNat h.sequence.toNat)]

/-- The counters, and the sampling rate if the version tells. -/
def ofSnapshot (s : Snapshot) : Exported :=
  object [("pkts_captured", ofNat s.captured.toNat), ("pkts_received", ofNat s.received.toNat),
    ("pkts_dropped", ofNat s.dropped.toNat),
    ("pkts_ifdropped", ofNat s.interfaceDropped.toNat),
    ("sample_rate", optional (fun n => ofNat n.toNat) s.sampleRate)]

/-- The client, the names and the addresses, all as texts. -/
def ofRecord (r : Record) : Exported :=
  object [("client_ip", text r.client.text), ("names", list (r.names.map text)),
    ("ips", list (r.addresses.map fun x => text x.text))]

/-- An object with one member, which is named for the kind of body. -/
def ofBody : Body → Exported
  | .stats s => object [("Stats", ofSnapshot s)]
  | .records rs => object [("Records", list (rs.map ofRecord))]

/-- The header and the body. -/
def ofMessage (m : Message) : Exported :=
  object [("header", ofHeader m.header), ("body", ofBody m.body)]

/-- The message with its time and its sender. -/
def ofPacket (p : Packet) : Exported :=
  object [("timestamp", ofTimestamp p.timestamp), ("source", ofEndpoint p.source),
    ("message", ofMessage p.message)]

/-- The record with its time and its sender. -/
def ofFlow (f : Flow) : Exported :=
  object [("timestamp", ofTimestamp f.timestamp), ("source", ofEndpoint f.source),
    ("record", ofRecord f.record)]

/-- The highest number so far and the three counts. -/
def ofSequence (s : SequenceState) : Exported :=
  object [("last", optional (fun n => ofNat n.toNat) s.last), ("total", ofNat s.total),
    ("lost", integer s.lost), ("ooo", ofNat s.late)]

/-- The change of each counter. -/
def ofChange (c : CounterChange) : Exported :=
  object [("pkts_captured", integer c.captured), ("pkts_received", integer c.received),
    ("pkts_dropped", integer c.dropped), ("pkts_ifdropped", integer c.interfaceDropped)]

/-- The latest snapshot and the two changes. -/
def ofCounters (c : CounterState) : Exported :=
  object [("last", ofSnapshot c.last), ("delta_last", ofChange c.sinceLast),
    ("delta_total", ofChange c.sinceFirst)]

/-- All that is kept about a sender. -/
def ofState (s : SourceState) : Exported :=
  object [("first_timestamp", ofTimestamp s.firstTimestamp),
    ("last_timestamp", ofTimestamp s.lastTimestamp), ("n_data_pkts", ofNat s.dataPackets),
    ("n_stats_pkts", ofNat s.statsPackets), ("n_records", ofNat s.records),
    ("seq", ofSequence s.sequence), ("stats", optional ofCounters s.counters)]

/-- The change of each counter per second. -/
def ofCounterRates (r : CounterRates) : Exported :=
  object [("pkts_captured", real r.captured), ("pkts_received", real r.received),
    ("pkts_dropped", real r.dropped), ("pkts_ifdropped", real r.interfaceDropped)]

/-- What there was per second. -/
def ofRates (r : Rates) : Exported :=
  object [("data_pkts", real r.dataPackets), ("records", real r.records),
    ("stats_pkts", real r.statsPackets), ("stats", optional ofCounterRates r.counters)]

/-- The sender, its state, and how much there was over what time. -/
def ofSummary (s : Summary) : Exported :=
  object [("source", ofEndpoint s.source), ("state", ofState s.state),
    ("duration", ofDuration s.duration), ("rates", optional ofRates s.rates)]

end Exported

end FlowTelemetry

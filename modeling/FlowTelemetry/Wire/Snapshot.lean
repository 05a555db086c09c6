import FlowTelemetry.Wire.Header

/-!
# Counter snapshots

From time to time a sender reports how many packets it has seen and how many
it had to drop. These counters are 32 bit numbers that only ever grow, until
the sender is restarted. From version 2 on they are followed by the sampling
rate, which is not a counter; a snapshot without one is written with the
rate zero.
-/

namespace FlowTelemetry

/-- The counters of a sender at one moment. -/
structure Snapshot where
  /-- Packets taken up by the sender. -/
  captured : UInt32
  /-- Packets that reached the sender's interface. -/
  received : UInt32
  /-- Packets dropped for lack of room. -/
  dropped : UInt32
  /-- Packets dropped by the interface. -/
  interfaceDropped : UInt32
  /-- One in how many packets is looked at, if the version tells. -/
  sampleRate : Option UInt32
  deriving DecidableEq, Repr

namespace Snapshot

/-- The number of octets of a snapshot. -/
def length (v : Version) : Nat := if v.hasSampleRate then 20 else 16

/-- Reads one counter. -/
def readCounter (counter : SnapshotField) : Reader DecodeError UInt32 :=
  Reader.field Cursor.u32? (.truncatedSnapshot · counter)

/-- Reads a snapshot in the given version. -/
def read (v : Version) : Reader DecodeError Snapshot := do
  let captured ← readCounter .captured
  let received ← readCounter .received
  let dropped ← readCounter .dropped
  let interfaceDropped ← readCounter .interfaceDropped
  let sampleRate ← if v.hasSampleRate then some <$> readCounter .sampleRate else pure none
  return { captured, received, dropped, interfaceDropped, sampleRate }

/-- Writes a snapshot in the given version. -/
def write (s : Snapshot) (v : Version) : Writer Unit := do
  Writer.append (Octets.ofUInt32 s.captured)
  Writer.append (Octets.ofUInt32 s.received)
  Writer.append (Octets.ofUInt32 s.dropped)
  Writer.append (Octets.ofUInt32 s.interfaceDropped)
  if v.hasSampleRate then Writer.append (Octets.ofUInt32 (s.sampleRate.getD 0))

end Snapshot

end FlowTelemetry

import FlowTelemetry.Capture.Frame
import FlowTelemetry.Wire.Message

/-!
# Packets and flows

A `Packet` is a message together with who sent it and when it was captured.
A `Flow` is a single record with the same two. Packets with a snapshot have
no flows.
-/

namespace FlowTelemetry

/-- A message, who sent it, and when it was captured. -/
structure Packet where
  timestamp : Timestamp
  source : Endpoint
  message : Message
  deriving DecidableEq, Repr

/-- A record, who sent it, and when it was captured. -/
structure Flow where
  timestamp : Timestamp
  source : Endpoint
  record : Record
  deriving DecidableEq, Repr

/-- The timestamp and the record with a blank between them. -/
def Flow.text (f : Flow) : String := f.timestamp.text ++ " " ++ f.record.text

namespace Packet

/-- The packet in a datagram. -/
def ofDatagram (detail : Detail) (d : Datagram) : Except DecodeError Packet :=
  (Message.decode detail d.payload).map (⟨d.timestamp, d.source, ·⟩)

/-- The records of a packet, if it has any. -/
def records (p : Packet) : List Record := p.message.body.recordList

/-- The snapshot of a packet, if it has one. -/
def snapshot? (p : Packet) : Option Snapshot := p.message.body.snapshot?

/-- The flows of a packet in the order of its records. -/
def flows (p : Packet) : List Flow := p.records.map (⟨p.timestamp, p.source, ·⟩)

end Packet

end FlowTelemetry

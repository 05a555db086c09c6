import FlowTelemetry.Collector.Packet

/-!
# The log

Frames that yield no packet are dropped, and the log is the only place where
that can be seen. An entry holds what happened rather than a text about it;
`LogEntry.message` makes the text. Of what was dropped the text shows the
first octets only.
-/

namespace FlowTelemetry

/-- How much an entry matters. -/
inductive LogLevel where
  | warn
  | debug
  | trace
  deriving DecidableEq, Repr

/-- The name of a level. -/
def LogLevel.name : LogLevel → String
  | warn => "WARN"
  | debug => "DEBUG"
  | trace => "TRACE"

/-- Something that happened while packets were collected. -/
inductive LogEntry where
  /-- A frame had no datagram in it. -/
  | frameDropped (frame : Frame) (error : FrameError)
  /-- A datagram had no message in it. -/
  | datagramDropped (datagram : Datagram) (error : DecodeError)
  /-- A packet was collected. -/
  | collected (packet : Packet)
  /-- Collecting ended because it was asked to. -/
  | stopped
  /-- Collecting ended because there were no more frames. -/
  | finished
  deriving DecidableEq, Repr

namespace LogEntry

/-- The greatest number of octets shown of what was dropped. -/
def excerptLength : Nat := 64

/-- How much an entry matters. -/
def level : LogEntry → LogLevel
  | frameDropped _ _ => .warn
  | datagramDropped _ _ => .warn
  | collected _ => .trace
  | stopped => .debug
  | finished => .debug

/-- The text about a datagram that had no message in it. -/
def datagramText (source : Endpoint) (error : DecodeError) : String :=
  s!"{error.message} from {source.text}"

/-- The entry as a text. -/
def message : LogEntry → String
  | frameDropped frame error =>
    s!"Dropping frame captured at {frame.timestamp.text}: {error.reason.message} " ++
    s!"({Hex.excerpt frame.octets excerptLength})"
  | datagramDropped datagram error =>
    s!"Dropping packet: {datagramText datagram.source error} " ++
    s!"({Hex.excerpt datagram.payload excerptLength})"
  | collected packet =>
    s!"Packet from {packet.source.text}: seq {packet.message.header.sequence.toNat}, " ++
    s!"{packet.message.header.setCount.toNat} sets"
  | stopped => "Stop requested, ending packet stream"
  | finished => "End of frames, ending packet stream"

end LogEntry

end FlowTelemetry

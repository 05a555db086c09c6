import FlowTelemetry.Collector.PacketStream

/-!
# Streams of flows

A `FlowStream` hands out the records of a stream of packets one by one. It
keeps the flows of the packet it is at and asks for another packet only when
all of them are gone, so no frame is pulled before it is needed. Packets
without flows are passed over. Failures of the feed are handed on.

A request to stop does not take away the flows that are left of the current
packet. They are handed out first, and then the stream ends.
-/

namespace FlowTelemetry

/-- A stream of flows from a feed. -/
structure FlowStream (ε : Type) where
  packets : PacketStream ε
  /-- The flows that are left of the current packet. -/
  pending : List Flow
  deriving DecidableEq

namespace FlowStream

variable {ε : Type}

/-- The flows of a stream of packets. -/
def ofPackets (packets : PacketStream ε) : FlowStream ε := ⟨packets, []⟩

/-- Requests the stream to stop. -/
def stop (s : FlowStream ε) : FlowStream ε := { s with packets := s.packets.stop }

variable [Network.Slicer]

/-- Asks for packets until there is a flow, a failure or the end. -/
def advance (packets : PacketStream ε) : Turn (FlowStream ε) (Except ε Flow) :=
  let turn := packets.next
  match h : turn.item with
  | none => ⟨none, turn.log, ⟨turn.stream, []⟩⟩
  | some (.error e) => ⟨some (.error e), turn.log, ⟨turn.stream, []⟩⟩
  | some (.ok packet) =>
    match packet.flows with
    | flow :: pending => ⟨some (.ok flow), turn.log, ⟨turn.stream, pending⟩⟩
    | [] =>
      -- The packet that is passed over was made of at least one event.
      have := packets.length_unread_next_lt (by simp [turn, h])
      let later := advance turn.stream
      { later with log := turn.log ++ later.log }
termination_by packets.feed.unread.length

/-- Asks for the next item. -/
def next (s : FlowStream ε) : Turn (FlowStream ε) (Except ε Flow) :=
  match s.pending with
  | flow :: pending => ⟨some (.ok flow), [], { s with pending }⟩
  | [] => advance s.packets

end FlowStream

end FlowTelemetry

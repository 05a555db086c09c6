import FlowTelemetry.Health.SourceState

/-!
# Keeping track of senders

A `Tracker` has a state for every sender that it has heard of. A sender is
entered with its first packet and is never removed. Packets of one sender
leave the states of all others alone.

The senders are kept in the order in which they were first heard of. There is
no more to that order; what is shown to a person is sorted.
-/

namespace FlowTelemetry

/-- The states of all senders. -/
structure Tracker where
  /-- Each sender and its state. -/
  sources : List (Endpoint × SourceState)
  deriving DecidableEq, Repr

namespace Tracker

/-- No sender has been heard of. -/
def empty : Tracker := ⟨[]⟩

/-- The states after a packet. -/
def updateSources (p : Packet) : List (Endpoint × SourceState) → List (Endpoint × SourceState)
  | [] => [(p.source, (SourceState.initial p.timestamp).update p)]
  | (source, state) :: rest =>
    if source = p.source then (source, state.update p) :: rest
    else (source, state) :: updateSources p rest

/-- Takes note of a packet. -/
def update (t : Tracker) (p : Packet) : Tracker := ⟨updateSources p t.sources⟩

/-- Takes note of one packet after the other. -/
def run (t : Tracker) (ps : List Packet) : Tracker := ps.foldl update t

/-- The state of a sender. -/
def get? (t : Tracker) (source : Endpoint) : Option SourceState := t.sources.lookup source

/-- How many senders have been heard of. -/
def size (t : Tracker) : Nat := t.sources.length

/-- Whether no sender has been heard of. -/
def isEmpty (t : Tracker) : Bool := t.sources.isEmpty

end Tracker

end FlowTelemetry

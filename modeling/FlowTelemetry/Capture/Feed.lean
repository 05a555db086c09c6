import FlowTelemetry.Capture.Frame

/-!
# Feeds of frames

A `Feed` is where frames come from: a live capture, a file, or a list. It is
pulled for one frame after the other, and each pull yields an `Event`. Most
of them are frames. A live capture also reports when it has waited in vain,
and may fail, which need not be the end. A request to stop that arrives
while a pull is waiting is an event, too. A feed without further events has
come to its end, and stays there however often it is pulled.

A feed counts the pulls, and what it has not yielded yet is a list, so it can
be told at any time how far it has been read.
-/

namespace FlowTelemetry

/-- What a pull yields. Failures are described by an `ε`. -/
inductive Event (ε : Type) where
  | frame (f : Frame)
  /-- No frame came within the waiting time. -/
  | timeout
  /-- No frame came, but a request to stop did. -/
  | stopRequest
  | failure (e : ε)
  /-- There are no more frames. -/
  | finished
  deriving DecidableEq, Repr

/-- Where frames come from. -/
structure Feed (ε : Type) where
  /-- The events that have not been pulled yet. -/
  unread : List (Event ε)
  /-- How often the feed was pulled. -/
  pulls : Nat
  deriving DecidableEq, Repr

namespace Feed

/-- A feed that will yield the given events. -/
def ofEvents {ε : Type} (events : List (Event ε)) : Feed ε := ⟨events, 0⟩

/-- A feed that will yield the given frames, and cannot fail. -/
def ofFrames (frames : List Frame) : Feed Empty := ofEvents (frames.map .frame)

/-- The feed after a pull that left these events unread. -/
def pulled {ε : Type} (feed : Feed ε) (unread : List (Event ε)) : Feed ε :=
  ⟨unread, feed.pulls + 1⟩

end Feed

end FlowTelemetry

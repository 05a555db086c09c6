import FlowTelemetry.Wire.Message

/-!
# Settings

What can be set is how much of each message is read, which frames a capture
should let through, and how long it may wait for a frame before it has to
say that there was none. The filter is a text for the capture to make sense
of. The waiting time is kept within bounds: much shorter and the capture
would do nothing but report, much longer and a request to stop would not be
noticed.
-/

namespace FlowTelemetry

/-- How frames are captured and read. -/
structure Settings where
  detail : Detail
  /-- Which frames the capture should let through. -/
  filter : String
  /-- How long to wait for a frame, in nanoseconds. -/
  pollInterval : Nat
  deriving DecidableEq, Repr

namespace Settings

/-- The port that messages are sent to. -/
def defaultPort : UInt16 := 5300

/-- The filter for messages sent to the default port. -/
def defaultFilter : String := s!"udp and dst port {defaultPort.toNat}"

/-- The shortest waiting time: a millisecond. -/
def minPollInterval : Nat := 1000000

/-- The longest waiting time: ten seconds. -/
def maxPollInterval : Nat := 10000000000

/-- The settings to begin with. -/
def initial : Settings :=
  { detail := .full, filter := defaultFilter, pollInterval := 100000000 }

/-- Sets how much of a message is read. -/
def withDetail (s : Settings) (detail : Detail) : Settings := { s with detail }

/-- Sets the filter. -/
def withFilter (s : Settings) (filter : String) : Settings := { s with filter }

/-- Lets through what both the default filter and another one let through. -/
def withExtraFilter (s : Settings) (extra : String) : Settings :=
  { s with filter := s!"({defaultFilter}) and ({extra})" }

/-- Sets the waiting time to the nearest one that is allowed. -/
def withPollInterval (s : Settings) (nanoseconds : Nat) : Settings :=
  { s with pollInterval := max minPollInterval (min maxPollInterval nanoseconds) }

end Settings

end FlowTelemetry

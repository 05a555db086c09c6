import FlowTelemetry.Health.Tracker

/-!
# Summaries

A `Summary` is what is reported about a sender: its state, how long it has
been heard of, and how much of everything there was per second. There is
nothing per second unless time has gone forwards, and so nothing is ever
divided by zero.

Summaries of all senders are sorted by endpoint. No two senders have the same
endpoint, which leaves one possible order.
-/

namespace FlowTelemetry

/-- The change of each counter per second. -/
structure CounterRates where
  captured : Float
  received : Float
  dropped : Float
  interfaceDropped : Float

/-- What there was per second. -/
structure Rates where
  dataPackets : Float
  records : Float
  statsPackets : Float
  /-- The counters, if there were any. -/
  counters : Option CounterRates

/-- A report about a sender. -/
structure Summary where
  source : Endpoint
  state : SourceState
  duration : Duration
  /-- What there was per second, if any time has passed. -/
  rates : Option Rates

namespace Rates

/-- A number of things over a number of seconds. -/
def rate (seconds : Float) (n : Int) : Float := Float.ofInt n / seconds

/-- The changes of counters over a number of seconds. -/
def ofChange (seconds : Float) (c : CounterChange) : CounterRates :=
  { captured := rate seconds c.captured
    received := rate seconds c.received
    dropped := rate seconds c.dropped
    interfaceDropped := rate seconds c.interfaceDropped }

/-- All there was over a number of seconds. -/
def ofState (seconds : Float) (s : SourceState) : Rates :=
  { dataPackets := rate seconds s.dataPackets
    records := rate seconds s.records
    statsPackets := rate seconds s.statsPackets
    counters := s.counters.map fun c => ofChange seconds c.sinceFirst }

end Rates

namespace Summary

/-- The report about a sender in the given state. -/
def ofState (source : Endpoint) (s : SourceState) : Summary :=
  let duration := s.duration
  { source, state := s, duration
    rates := if duration.isPositive then some (.ofState duration.seconds s) else none }

end Summary

namespace Tracker

/-- The report about one sender. -/
def summary? (t : Tracker) (source : Endpoint) : Option Summary :=
  (t.get? source).map (Summary.ofState source)

/-- The reports about all senders, sorted by endpoint. -/
def summaries (t : Tracker) : List Summary :=
  (t.sources.map fun (source, state) => Summary.ofState source state).mergeSort
    fun x y => x.source.rank ≤ y.source.rank

end Tracker

end FlowTelemetry

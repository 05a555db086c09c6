import FlowTelemetry.Wire.Snapshot

/-!
# Changes of counters

A snapshot says what a sender has counted since it was started. Of interest
is what it has counted from one snapshot to the next, and since it was first
heard of. The counters of a sender that was restarted begin anew, so changes
may be negative; adding them up gives the change from the first snapshot to
the last one all the same. The sampling rate is no counter and does not
change.
-/

namespace FlowTelemetry

/-- The change of each counter between two snapshots. -/
structure CounterChange where
  captured : Int
  received : Int
  dropped : Int
  interfaceDropped : Int
  deriving DecidableEq, Repr

namespace CounterChange

/-- No change. -/
def zero : CounterChange := ⟨0, 0, 0, 0⟩

/-- The change from one snapshot to another. -/
def between (earlier later : Snapshot) : CounterChange :=
  { captured := (later.captured.toNat : Int) - earlier.captured.toNat
    received := (later.received.toNat : Int) - earlier.received.toNat
    dropped := (later.dropped.toNat : Int) - earlier.dropped.toNat
    interfaceDropped := (later.interfaceDropped.toNat : Int) - earlier.interfaceDropped.toNat }

/-- One change after another. -/
def add (x y : CounterChange) : CounterChange :=
  { captured := x.captured + y.captured
    received := x.received + y.received
    dropped := x.dropped + y.dropped
    interfaceDropped := x.interfaceDropped + y.interfaceDropped }

instance : Add CounterChange := ⟨add⟩

/-- Changes of one snapshot to a second and of the second to a third add up. -/
theorem between_add_between (x y z : Snapshot) : between x y + between y z = between x z := by
  show add (between x y) (between y z) = between x z
  simp only [add, between, CounterChange.mk.injEq]
  omega

theorem between_self (x : Snapshot) : between x x = zero := by
  simp [between, zero]

end CounterChange

/-- What the snapshots of a sender have shown. -/
structure CounterState where
  /-- The latest snapshot. -/
  last : Snapshot
  /-- The change since the snapshot before it. -/
  sinceLast : CounterChange
  /-- The change since the first snapshot. -/
  sinceFirst : CounterChange
  deriving DecidableEq, Repr

namespace CounterState

/-- There was one snapshot, and so there was no change. -/
def ofSnapshot (s : Snapshot) : CounterState := ⟨s, .zero, .zero⟩

/-- Takes note of another snapshot. -/
def update (c : CounterState) (s : Snapshot) : CounterState :=
  let change := CounterChange.between c.last s
  ⟨s, change, c.sinceFirst + change⟩

end CounterState

end FlowTelemetry

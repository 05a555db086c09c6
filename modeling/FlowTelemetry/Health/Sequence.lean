/-!
# Sequence numbers

A sender numbers its messages, so gaps in the numbers show how many messages
were lost. Messages may overtake each other on the way. A number that is
higher than expected is taken to mean that all numbers in between are lost; a
number that is lower than the highest one so far then takes one of these
losses back. The same number again changes nothing.

The estimate is right as long as no message arrives twice and the numbers do
not wrap around. A late message that was already counted makes the losses go
below zero, which is why they are an integer.
-/

namespace FlowTelemetry

/-- What the sequence numbers of a sender have shown. -/
structure SequenceState where
  /-- The highest number so far. -/
  last : Option UInt32
  /-- How many messages there were. -/
  total : Nat
  /-- How many messages seem to be lost. -/
  lost : Int
  /-- How many messages came late. -/
  late : Nat
  deriving DecidableEq, Repr

namespace SequenceState

/-- Nothing is known yet. -/
def initial : SequenceState := { last := none, total := 0, lost := 0, late := 0 }

/-- Takes note of a message with the given number. -/
def update (s : SequenceState) (n : UInt32) : SequenceState :=
  let s := { s with total := s.total + 1 }
  match s.last with
  | none => { s with last := some n }
  | some last =>
    if last < n then
      { s with last := some n, lost := s.lost + ((n.toNat : Int) - last.toNat - 1) }
    else if n < last then { s with lost := s.lost - 1, late := s.late + 1 }
    else s

/-- Takes note of one message after the other. -/
def run (s : SequenceState) (ns : List UInt32) : SequenceState := ns.foldl update s

end SequenceState

end FlowTelemetry

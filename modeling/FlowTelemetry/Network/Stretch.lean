import FlowTelemetry.Octets.Basic
import FlowTelemetry.Network.Fault

/-!
# Stretches of a frame

Taking a frame apart means to go from one stretch of it to a smaller one
inside. A `Stretch` remembers what a fault has to report: where in the frame
it begins, and what decided how long it is.

It also remembers how long it is. A frame may have very many headers, and
counting the octets that are left at each of them would take far longer than
going past them does.

There are two ways to demand octets. `require` only checks that there are
enough of them. `skip` goes past them, and shows along with the rest how much
shorter the rest is, which is why a walk along any number of headers ends.

Octets are looked up by index. A lookup beyond the end yields zero; the layers
look up only what they have required.
-/

namespace FlowTelemetry.Network

/-- A stretch of a frame. -/
structure Stretch where
  /-- Where in the frame the stretch begins. -/
  offset : Nat
  octets : Octets
  /-- The number of octets. -/
  size : Nat
  /-- What decides where it ends. -/
  bound : LengthSource
  size_eq : size = octets.length

namespace Stretch

/-- All that was captured. -/
def whole (bs : Octets) : Stretch :=
  { offset := 0, octets := bs, size := bs.length, bound := .slice, size_eq := rfl }

/-- The octet at an index. -/
def octet (s : Stretch) (i : Nat) : UInt8 := s.octets.getD i 0

/-- The 16 bit number at an index. -/
def u16 (s : Stretch) (i : Nat) : UInt16 := Octets.uint16 (s.octet i) (s.octet (i + 1))

/-- The first `n` octets, as decided by some length field. -/
def first (s : Stretch) (n : Nat) (bound : LengthSource) : Stretch :=
  { offset := s.offset, octets := s.octets.take n, size := min n s.size, bound
    size_eq := by rw [s.size_eq, List.length_take] }

/-- All but the first `n` octets. -/
def after (s : Stretch) (n : Nat) : Stretch :=
  { offset := s.offset + n, octets := s.octets.drop n, size := s.size - n, bound := s.bound
    size_eq := by rw [s.size_eq, List.length_drop] }

/-- The fault of a layer that would need `n` octets of the stretch. -/
def short (s : Stretch) (n : Nat) (layer : Layer) : Fault :=
  .length n s.size s.bound layer s.offset

/-- Demands `n` octets for a layer. -/
def require (s : Stretch) (n : Nat) (layer : Layer) : Except Fault Unit :=
  if n ≤ s.size then .ok () else .error (s.short n layer)

/-- Demands `n` octets for a layer and goes past them. -/
def skip (s : Stretch) (n : Nat) (layer : Layer) :
    Except Fault { rest : Stretch // rest.size + n = s.size } :=
  if h : n ≤ s.size then .ok ⟨s.after n, Nat.sub_add_cancel h⟩
  else .error (s.short n layer)

end Stretch

end FlowTelemetry.Network

import FlowTelemetry.Octets.Cursor
import FlowTelemetry.Wire.Buffer
import FlowTelemetry.Wire.Version

/-!
# Message headers

Every message begins with eight octets: the version, the number of records,
the flags and a sequence number that the sender increases from message to
message.

Reading a header makes two demands beyond there being eight octets. The
version has to be known, because without it nothing after the header can be
made sense of. And a message without records has to be one of counters: a
message that announces neither is of no use to anyone, and most likely is
not a message at all.
-/

namespace FlowTelemetry

/-- The first eight octets of a message. -/
structure Header where
  version : Version
  /-- The number of records. A message of counters may have any number here. -/
  setCount : UInt8
  flags : Flags
  sequence : UInt32
  deriving DecidableEq, Repr

namespace Header

/-- The number of octets of a header. -/
def length : Nat := 8

/-- Whether the message carries counters. -/
def isStats (h : Header) : Bool := h.flags.isStats

/-- Reads a header. A header that is too short is not touched, one that is
refused is read nevertheless. -/
def read : Reader DecodeError Header
  | ⟨position, v :: n :: f₁ :: f₀ :: s₃ :: s₂ :: s₁ :: s₀ :: rest⟩ =>
    let after : Cursor := ⟨position + length, rest⟩
    let flags : Flags := ⟨Octets.uint16 f₁ f₀⟩
    match Version.ofOctet? v with
    | some version =>
      if flags.isStats || n != 0 then
        .ok ⟨version, n, flags, Octets.uint32 s₃ s₂ s₁ s₀⟩ after
      else .error (.invalidHeader v n) after
    | none => .error (.invalidHeader v n) after
  | c => .error (.truncatedHeader c.remaining) c

/-- Writes a header. -/
def write (h : Header) : Writer Unit := do
  Writer.append [h.version.number]
  Writer.append [h.setCount]
  Writer.append (Octets.ofUInt16 h.flags.bits)
  Writer.append (Octets.ofUInt32 h.sequence)

end Header

end FlowTelemetry

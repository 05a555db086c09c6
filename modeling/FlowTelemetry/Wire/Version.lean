import FlowTelemetry.Octets.Hex

/-!
# Versions and flags

There are three versions of the format. They differ in two ways: from
version 1 on names are written as labels with their lengths in front, where
version 0 ends each name with a NUL; and version 2 adds the sampling rate to
the counters. Everything else is common to all three.

Flags are sixteen bits of which one has a meaning, saying that the message
carries counters and no records. The others are kept as they came, so that
a message which is read and written again does not lose them.
-/

namespace FlowTelemetry

/-- A version of the format. -/
inductive Version where
  | v0
  | v1
  | v2
  deriving DecidableEq, Repr

namespace Version

/-- The version that new messages should have. -/
def current : Version := v2

/-- The version with the given number. -/
def ofOctet? (n : UInt8) : Option Version :=
  if n = 0 then some v0 else if n = 1 then some v1 else if n = 2 then some v2 else none

/-- The number of a version. -/
def number : Version → UInt8
  | v0 => 0
  | v1 => 1
  | v2 => 2

/-- Whether names are written as labels. -/
def hasLabels : Version → Bool
  | v0 => false
  | v1 => true
  | v2 => true

/-- Whether the counters include the sampling rate. -/
def hasSampleRate : Version → Bool
  | v0 => false
  | v1 => false
  | v2 => true

/-- The number of a version as a text. -/
def text (v : Version) : String := toString v.number.toNat

@[simp] theorem ofOctet?_number (v : Version) : ofOctet? v.number = some v := by
  cases v <;> rfl

theorem number_of_ofOctet? {n : UInt8} {v : Version} (h : ofOctet? n = some v) :
    v.number = n := by
  simp only [ofOctet?] at h
  split at h
  · next h0 => cases h; exact h0.symm
  · split at h
    · next h1 => cases h; exact h1.symm
    · split at h
      · next h2 => cases h; exact h2.symm
      · cases h

end Version

/-- The flags of a message. -/
structure Flags where
  bits : UInt16
  deriving DecidableEq, Repr

namespace Flags

/-- No flag at all. -/
def none : Flags := ⟨0⟩

/-- The flag of a message that carries counters. -/
def stats : Flags := ⟨1⟩

/-- Whether all of the `other` flags are set. -/
def contains (f other : Flags) : Bool := f.bits &&& other.bits == other.bits

/-- Whether the message carries counters. -/
def isStats (f : Flags) : Bool := f.contains stats

/-- The same flags, but saying that the message does or does not carry
counters. -/
def setStats (f : Flags) (set : Bool) : Flags :=
  if set then ⟨f.bits ||| stats.bits⟩ else ⟨f.bits &&& ~~~stats.bits⟩

/-- The bits as four hex digits. -/
def text (f : Flags) : String := "0x" ++ Hex.text (Octets.ofUInt16 f.bits)

end Flags

end FlowTelemetry

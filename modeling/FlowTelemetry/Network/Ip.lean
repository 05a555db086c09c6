import FlowTelemetry.Network.Transport

/-!
# IP packets

An IPv4 packet says in its header how long the header is and how long the
whole packet is; what was captured beyond that is not a part of it. Between
header and payload there may be one authentication header. An IPv6 packet
has a header of fixed length and any number of extension headers.

A packet that is only a fragment of a larger one does not show what it
carries. It is not broken, and not a datagram either. The headers in front of
the payload are checked nevertheless.

Messages arrive over IPv4 only. IPv6 packets are walked through to tell the
broken ones from those that are merely of no use.

Checksums are not looked at: a capture on the sending host often sees packets
before their checksums are filled in.
-/

namespace FlowTelemetry.Network

/-- The number of the authentication header. -/
def authentication : Nat := 51

/-- Goes past an authentication header, whose length is given in words of four
octets, two of them not counted. -/
def skipAuthentication (s : Stretch) :
    Except Fault { rest : Stretch // rest.size + ((s.octet 1).toNat + 2) * 4 = s.size } := do
  s.require 12 .authentication
  if s.octet 1 = 0 then throw .authenticationLength
  s.skip (((s.octet 1).toNat + 2) * 4) .authentication

namespace Ipv4

/-- The high four bits of the first octet: the version of the packet. -/
def version (s : Stretch) : Nat := (s.octet 0).toNat / 16

/-- The number of octets of a header without options. -/
def minHeaderLength : Nat := 20

/-- Whether the packet is one of several fragments. -/
def isFragment (s : Stretch) : Bool :=
  -- The lower 13 bits are the offset of the fragment, the bit above says that more follow.
  (s.u16 6).toNat % 0x4000 != 0

/-- The source address. -/
def source (s : Stretch) : Address :=
  ⟨s.octet 12, s.octet 13, s.octet 14, s.octet 15⟩

/-- Takes a packet apart whose version is known to be 4. -/
def parse (s : Stretch) : Except Fault Contents := do
  let words := (s.octet 0).toNat % 16
  if words < 5 then throw (.ipv4HeaderLength words)
  let headerLength := 4 * words
  s.require headerLength .ipv4Header
  let total := (s.u16 2).toNat
  if total < headerLength then
    throw (.length headerLength total .ipv4TotalLength .ipv4Packet s.offset)
  s.require total .ipv4Packet
  let payload := (s.first total .ipv4TotalLength).after headerLength
  let protocol := (s.octet 9).toNat
  let (protocol, payload) ←
    if protocol = authentication then do
      let rest ← skipAuthentication payload
      pure ((payload.octet 0).toNat, rest.val)
    else pure (protocol, payload)
  if isFragment s then return ⟨some (.ipv4 (source s)), none⟩
  let segment ← Segment.parse protocol payload
  return ⟨some (.ipv4 (source s)), some segment⟩

end Ipv4

namespace Ipv6

/-- The number of octets of the header before any extensions. -/
def headerLength : Nat := 40

/-! The numbers of the extension headers. -/

/-- Options for every host on the way. -/
def hopByHop : Nat := 0

/-- Hosts to pass on the way. -/
def routing : Nat := 43

/-- The place of a fragment in the packet it comes from. -/
def fragment : Nat := 44

/-- Options for the receiver. -/
def destination : Nat := 60

/-- Goes past an extension header of the common form, whose length is given
in words of eight octets, the first of them not counted. -/
def skipExtension (s : Stretch) :
    Except Fault { rest : Stretch // rest.size + ((s.octet 1).toNat + 1) * 8 = s.size } := do
  s.require 8 .ipv6Extension
  s.skip (((s.octet 1).toNat + 1) * 8) .ipv6Extension

/-- Whether a fragment header is that of one of several fragments. -/
def isFragment (s : Stretch) : Bool :=
  (s.octet 2).toNat != 0 || (s.octet 3).toNat &&& 0x9F != 0

/-- Goes past all extension headers. The result is the number of what follows
them, whether there was a fragment among them, and the rest. -/
def skipExtensions (next : Nat) (fragmented : Bool) (s : Stretch) :
    Except Fault (Nat × Bool × Stretch) := do
  if next = hopByHop then throw .hopByHopNotFirst
  else if next = destination ∨ next = routing then
    let ⟨rest, _⟩ ← skipExtension s
    skipExtensions (s.octet 0).toNat fragmented rest
  else if next = fragment then
    let ⟨rest, _⟩ ← s.skip 8 .ipv6Fragment
    skipExtensions (s.octet 0).toNat (fragmented || isFragment s) rest
  else if next = authentication then
    let ⟨rest, _⟩ ← skipAuthentication s
    skipExtensions (s.octet 0).toNat fragmented rest
  else return (next, fragmented, s)
termination_by s.size
decreasing_by all_goals omega

/-- Walks through a packet and looks for faults. -/
def check (s : Stretch) : Except Fault Unit := do
  s.require headerLength .ipv6Header
  let version := (s.octet 0).toNat / 16
  if version ≠ 6 then throw (.ipv6Version version)
  let length := (s.u16 4).toNat
  -- The length zero stands for all there is, if there is anything.
  let unbounded := length = 0 ∧ s.size > headerLength
  if ¬ unbounded then s.require (headerLength + length) .ipv6Packet
  let packet :=
    if unbounded then s else s.first (headerLength + length) .ipv6PayloadLength
  let payload := packet.after headerLength
  -- Faults of extension headers are put down to the length field in either case.
  let extensions : Stretch := { payload with bound := .ipv6PayloadLength }
  let next := (s.octet 6).toNat
  let (next, extensions) ←
    if next = hopByHop then do
      let rest ← skipExtension extensions
      pure ((extensions.octet 0).toNat, rest.val)
    else pure (next, extensions)
  let (next, fragmented, rest) ← skipExtensions next false extensions
  if !fragmented then
    let _ ← Segment.parse next { rest with bound := payload.bound }

end Ipv6

end FlowTelemetry.Network

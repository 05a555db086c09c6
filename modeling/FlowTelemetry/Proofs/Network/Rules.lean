import FlowTelemetry.Network.Slicer

/-!
# What slicers are relied upon for

A slicer may be anything, and so not much is true of a frame whatever slicer
takes it apart. More is true if the slicer does what is documented of slicers,
and here is what that means. How a slicer puts refusals into words is nowhere
relied upon.

A slicer goes by `Rules` for IPv4 packets, and by one set of them whether a
packet is behind an Ethernet header or by itself (`Slicer.GoesBy`). What the
rules may be is left open as far as possible. That they are about packets of
version 4 is one condition (`Rules.Versioned`). Another is that they go by the
lengths that are in the headers (`Rules.ByLengths`); it is about headers in
which everything is in order, whatever else is in them, and says nothing of any
others. Checksums are no part of what is in order.

Whatever the rules, a slicer makes nothing up: the payload of a datagram is
where it was among the octets (`Slicer.InPlace`).
-/

namespace FlowTelemetry

/-- The 16 bit number at an index. -/
def Octets.uint16At (bs : Octets) (i : Nat) : UInt16 :=
  Octets.uint16 (bs.getD i 0) (bs.getD (i + 1) 0)

namespace Network

/-- The version of an IP packet, in the high half of its first octet. -/
def versionOf (packet : Octets) : Nat := (packet.getD 0 0).toNat / 16

/-! ## Headers -/

/-- **An IPv4 header**, with or without options, in front of a UDP datagram of
the given length that is not fragmented. -/
structure Ipv4.IsHeader (source : Address) (length : Nat) (bs : Octets) : Prop where
  version : versionOf bs = 4
  /-- The low half of the first octet counts words of four octets. -/
  words : 4 * ((bs.getD 0 0).toNat % 16) = bs.length
  min_le : 20 ≤ bs.length
  total : (bs.uint16At 2).toNat = bs.length + length
  /-- No more fragments follow, and there are none before. -/
  unfragmented : (bs.uint16At 6).toNat % 0x4000 = 0
  protocol : bs.getD 9 0 = 17
  source_eq : source = ⟨bs.getD 12 0, bs.getD 13 0, bs.getD 14 0, bs.getD 15 0⟩

/-- **A UDP header** in front of a message of the given length. -/
structure Segment.IsUdpHeader (port : UInt16) (length : Nat) (bs : Octets) : Prop where
  length_eq : bs.length = 8
  port_eq : port = bs.uint16At 0
  total : (bs.uint16At 4).toNat = 8 + length

/-! ## Rules -/

/-- **Rules by which packets are taken apart.** What is not in accordance with
them is refused. -/
structure Rules where
  /-- For IPv4 packets. -/
  ipv4 : Octets → Option Contents
  /-- For what follows an IPv4 header that announces UDP. -/
  udp : Octets → Option Segment

/-- Only packets of version 4 are IPv4 packets, and all of them have an IPv4
header. -/
structure Rules.Versioned (rules : Rules) : Prop where
  version_eq {packet : Octets} {contents : Contents} :
    rules.ipv4 packet = some contents → versionOf packet = 4
  header_eq {packet : Octets} {contents : Contents} :
    rules.ipv4 packet = some contents → ∃ source, contents.header = some (.ipv4 source)

/-- **Headers decide by their lengths** where it is that the next part begins
and where it ends. -/
structure Rules.ByLengths (rules : Rules) : Prop where
  /-- What follows the header is taken apart as a datagram, without anything
  that lies behind the packet. -/
  ipv4 {source : Address} {header segment : Octets} (trailer : Octets) :
    Ipv4.IsHeader source segment.length header →
      rules.ipv4 (header ++ segment ++ trailer) =
        (rules.udp segment).map fun s => ⟨some (.ipv4 source), some s⟩
  /-- The message follows the header, without anything that lies behind the
  datagram. -/
  udp {port : UInt16} {header payload : Octets} (trailer : Octets) :
    Segment.IsUdpHeader port payload.length header →
      rules.udp (header ++ payload ++ trailer) = some (.datagram port payload)

/-! ## Slicers -/

section Slicers

variable [Slicer]

/-- **The slicer goes by these rules for IPv4 packets**, no matter whether it is
an Ethernet header that announces the packet or the packet that says so itself.
Packets of unknown versions are refused. -/
structure Slicer.GoesBy (rules : Rules) : Prop where
  ofEthernet {addresses : Octets} (packet : Octets) : addresses.length = 12 →
    (Slicer.ofEthernet (addresses ++ [0x08, 0x00] ++ packet)).toOption = rules.ipv4 packet
  ofIp {packet : Octets} : versionOf packet = 4 →
    (Slicer.ofIp packet).toOption = rules.ipv4 packet
  unknown {packet : Octets} : versionOf packet ≠ 4 → versionOf packet ≠ 6 →
    (Slicer.ofIp packet).toOption = none

/-- The payload of a datagram is a part of the given octets. -/
def Contents.Within (bs : Octets) (contents : Contents) : Prop :=
  ∀ port payload, contents.segment = some (.datagram port payload) → payload <:+: bs

/-- **The slicer makes nothing up.** -/
structure Slicer.InPlace : Prop where
  ofEthernet {bs : Octets} {contents : Contents} :
    Slicer.ofEthernet bs = .ok contents → contents.Within bs
  ofIp {bs : Octets} {contents : Contents} : Slicer.ofIp bs = .ok contents → contents.Within bs

end Slicers

end Network

end FlowTelemetry

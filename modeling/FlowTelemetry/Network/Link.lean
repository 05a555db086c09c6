import FlowTelemetry.Network.Ip

/-!
# From frames to IP packets

An Ethernet frame says what it carries, and up to two VLAN tags may come
before that. In a frame without any such header the packet is recognised by
its own first octet, which begins with its version.

The two ways meet in `Ipv4.parse`. The only difference is in what is found
wrong first with a packet that is hardly there: behind an Ethernet header the
shortest possible IP header is asked for before anything else.

Together they are a slicer, `Slicer.standard`. It is the one that is used
unless another is asked for.
-/

namespace FlowTelemetry.Network

/-! The numbers by which Ethernet frames say what they carry. -/

/-- An IPv4 packet. -/
def etherIpv4 : Nat := 0x0800

/-- An IPv6 packet. -/
def etherIpv6 : Nat := 0x86DD

/-- Whether an Ethernet frame carries a VLAN tag under the given number. -/
def isVlan (etherType : Nat) : Bool :=
  etherType == 0x8100 || etherType == 0x88A8 || etherType == 0x9100

/-- The number of octets of an Ethernet header. -/
def ethernetHeaderLength : Nat := 14

/-- The number of octets of a VLAN tag. -/
def vlanTagLength : Nat := 4

/-- Takes apart what an Ethernet frame carries under the given number, with at
most `tags` VLAN tags before it. -/
def ofEtherType (tags etherType : Nat) (s : Stretch) : Except Fault Contents := do
  if etherType = etherIpv4 then
    s.require Ipv4.minHeaderLength .ipv4Header
    if Ipv4.version s ≠ 4 then throw (.ipv4Version (Ipv4.version s))
    Ipv4.parse s
  else if etherType = etherIpv6 then
    Ipv6.check s
    return ⟨some .ipv6, none⟩
  else if isVlan etherType then
    match tags with
    | 0 => return ⟨none, none⟩
    | tags + 1 =>
      s.require vlanTagLength .vlan
      ofEtherType tags (s.u16 2).toNat (s.after vlanTagLength)
  else return ⟨none, none⟩

/-- Takes an Ethernet frame apart. -/
def ofEthernet (bs : Octets) : Except Fault Contents := do
  let s := Stretch.whole bs
  s.require ethernetHeaderLength .ethernet
  ofEtherType 2 (s.u16 12).toNat (s.after ethernetHeaderLength)

/-- Takes an IP packet apart that has nothing in front of it. -/
def ofIp (bs : Octets) : Except Fault Contents := do
  let s := Stretch.whole bs
  s.require 1 .ip
  let version := Ipv4.version s
  if version = 4 then Ipv4.parse s
  else if version = 6 then
    Ipv6.check s
    return ⟨some .ipv6, none⟩
  else throw (.ipVersion version)

/-- What remains of a fault is its text. -/
def Fault.refusal (fault : Fault) : Refusal := ⟨fault.message⟩

/-- **The slicer of this library.** -/
instance Slicer.standard : Slicer where
  ofEthernet bs := (Network.ofEthernet bs).mapError Fault.refusal
  ofIp bs := (Network.ofIp bs).mapError Fault.refusal

end FlowTelemetry.Network

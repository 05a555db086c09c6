import FlowTelemetry.Network.Slicer
import FlowTelemetry.Network.Stretch

/-!
# Transport headers

Of what an IP packet may carry only UDP datagrams are of interest. The
others are checked for being whole all the same, so that a packet that was
cut off is told from one that is merely something else.
-/

namespace FlowTelemetry.Network

namespace Segment

/-! The numbers by which packets say what they carry. -/

/-- Control messages over IPv4. -/
def icmpv4 : Nat := 1

/-- Connections. -/
def tcp : Nat := 6

/-- Datagrams. -/
def udp : Nat := 17

/-- Control messages over IPv6. -/
def icmpv6 : Nat := 58

/-- The number of octets of a UDP header. -/
def udpHeaderLength : Nat := 8

/-- Takes a UDP datagram apart. A length field of zero stands for all there
is, and octets behind the datagram are not a part of it. -/
def ofUdp (s : Stretch) : Except Fault Segment := do
  s.require udpHeaderLength .udpHeader
  let length := (s.u16 4).toNat
  s.require length .udpPayload
  if 0 < length && length < udpHeaderLength then
    throw (.length udpHeaderLength length .udpLength .udpHeader s.offset)
  let datagram := if length = 0 then s.octets else s.octets.take length
  return .datagram (s.u16 0) (datagram.drop udpHeaderLength)

/-- Checks a TCP header, whose length is given in words of four octets. -/
def checkTcp (s : Stretch) : Except Fault Unit := do
  s.require 20 .tcp
  let words := (s.octet 12).toNat / 16
  if words < 5 then throw (.tcpHeaderLength words)
  s.require (4 * words) .tcp

/-- Checks an ICMP message. A timestamp message has exactly 20 octets. -/
def checkIcmpv4 (s : Stretch) : Except Fault Unit := do
  s.require 8 .icmpv4
  if s.octet 1 = 0 ∧ s.size ≠ 20 then
    if s.octet 0 = 13 then throw (s.short 20 .timestampRequest)
    if s.octet 0 = 14 then throw (s.short 20 .timestampReply)

/-- Takes apart what a packet carries under the given number. -/
def parse (protocol : Nat) (s : Stretch) : Except Fault Segment := do
  if protocol = udp then ofUdp s
  else
    if protocol = tcp then checkTcp s
    if protocol = icmpv4 then checkIcmpv4 s
    if protocol = icmpv6 then s.require 8 .icmpv6
    return .other

end Segment

end FlowTelemetry.Network

/-!
# Faults of network headers

A frame is taken apart layer by layer, and each layer may turn out to be
broken. Most faults are about a length: a header needs more octets than
there are, or a length field says something impossible. Such a fault names
the layer, how many octets it requires, how many there are, where that
number comes from, and where in the frame the layer begins.

Here are the faults and their wording; what gives rise to them is in the
modules about the layers.
-/

namespace FlowTelemetry.Network

/-- The parts of a frame that can be found broken. -/
inductive Layer where
  | ethernet
  | vlan
  | ip
  | ipv4Header
  | ipv4Packet
  | authentication
  | ipv6Header
  | ipv6Packet
  | ipv6Extension
  | ipv6Fragment
  | udpHeader
  | udpPayload
  | tcp
  | icmpv4
  | timestampRequest
  | timestampReply
  | icmpv6
  deriving DecidableEq, Repr

/-- The words with which a fault of the layer begins. -/
def Layer.title : Layer → String
  | ethernet => "Ethernet 2 Header Error"
  | vlan => "VLAN Header Error"
  | ip => "IP Header Error"
  | ipv4Header => "IPv4 Header Error"
  | ipv4Packet => "IPv4 Packet Error"
  | authentication => "IP Authentication Header Error"
  | ipv6Header => "IPv6 Header Error"
  | ipv6Packet => "IPv6 Packet Error"
  | ipv6Extension => "IPv6 Extension Header Error"
  | ipv6Fragment => "IPv6 Fragment Header Error"
  | udpHeader => "UDP Header Error"
  | udpPayload => "UDP Payload Error"
  | tcp => "TCP Header Error"
  | icmpv4 => "ICMP Packet Error"
  | timestampRequest => "ICMP Timestamp Error"
  | timestampReply => "ICMP Timestamp Reply Error"
  | icmpv6 => "ICMPv6 Packet Error"

/-- What the layer is called within a sentence. -/
def Layer.name : Layer → String
  | ethernet => "Ethernet 2 header"
  | vlan => "VLAN header"
  | ip => "IP header"
  | ipv4Header => "IPv4 header"
  | ipv4Packet => "IPv4 packet"
  | authentication => "IP Authentication header"
  | ipv6Header => "IPv6 header"
  | ipv6Packet => "IPv6 packet"
  | ipv6Extension => "IPv6 extension header"
  | ipv6Fragment => "IPv6 fragment header"
  | udpHeader => "UDP header"
  | udpPayload => "UDP payload"
  | tcp => "TCP header"
  | icmpv4 => "ICMP packet"
  | timestampRequest => "ICMP timestamp message"
  | timestampReply => "ICMP timestamp reply message"
  | icmpv6 => "ICMPv6 packet"

/-- What decides how many octets a layer has at its disposal. -/
inductive LengthSource where
  /-- The octets that were captured. -/
  | slice
  | ipv4TotalLength
  | ipv6PayloadLength
  | udpLength
  deriving DecidableEq, Repr

/-- What the source is called within a sentence. -/
def LengthSource.name : LengthSource → String
  | slice => "slice length"
  | ipv4TotalLength => "length calculated from the IPv4 header 'total length' field"
  | ipv6PayloadLength => "length calculated from the IPv6 header 'payload length' field"
  | udpLength => "length calculated from the UDP header 'length' field"

/-- What is wrong with the headers of a frame. -/
inductive Fault where
  /-- A layer has too few octets or, for the two timestamp messages, too many. -/
  | length (required available : Nat) (source : LengthSource) (layer : Layer) (offset : Nat)
  /-- Neither version 4 nor version 6 where either might be. -/
  | ipVersion (version : Nat)
  | ipv4Version (version : Nat)
  | ipv6Version (version : Nat)
  /-- An IPv4 header that says it is shorter than any can be. -/
  | ipv4HeaderLength (words : Nat)
  /-- An authentication header that says it is shorter than any can be. -/
  | authenticationLength
  /-- A hop-by-hop header that is not the first extension. -/
  | hopByHopNotFirst
  /-- A TCP header that says it is shorter than any can be. -/
  | tcpHeaderLength (words : Nat)
  deriving DecidableEq, Repr

/-- The fault as a text. -/
def Fault.message : Fault → String
  | length required available source layer offset =>
    let what :=
      if available < required then
        s!"{layer.title}: Not enough data to decode '{layer.name}'. {required} byte(s) would be " ++
        s!"required, but only {available} byte(s) are available based on the {source.name}"
      else
        s!"{layer.title}: Length of {available} byte(s) is too big for an '{layer.name}' " ++
        s!"(maximum is {required} bytes). The {source.name} was used to determine the length"
    if offset = 0 then what ++ "."
    else what ++ s!" ('{layer.name}' starts at overall parsed byte {offset})."
  | ipVersion version =>
    s!"IP Header Error: Encountered '{version}' as IP version number in the IP header (only '4' " ++
    "or '6' are supported)."
  | ipv4Version version =>
    s!"IPv4 Header Error: Encountered '{version}' as IP version number in the IPv4 header (must " ++
    "be '4' in an IPv4 header)."
  | ipv6Version version =>
    s!"IPv6 Header Error: Encountered '{version}' as IP version number in the IPv6 header (must " ++
    "be '6' in an IPv6 header)."
  | ipv4HeaderLength words =>
    s!"IPv4 Header Error: The 'internet header length' value '{words}' present in the IPv4 " ++
    "header is smaller than the minimum size of an IPv4 header. The minimum allowed value is '5'."
  | authenticationLength =>
    "IP Authentication Header Error: Payload Length too small (0). The payload length must be " ++
    "at least 1."
  | hopByHopNotFirst =>
    "IPv6 Extension Header Error: Encountered an IPv6 hop-by-hop header not directly after the " ++
    "IPv6 header. This is not allowed according to RFC 8200."
  | tcpHeaderLength words =>
    s!"TCP Header Error: 'data offset' too small ({words}). The 'data offset' must be at least " ++
    "5 so the data is not overlapping with the TCP header itself."

end FlowTelemetry.Network

import FlowTelemetry.Network.Address

/-!
# Slicing frames

How network headers are laid out is no business of a collector of messages.
It leaves taking them apart to a `Slicer`, which either refuses octets or says
what they hold, and all that is asked of its answer is whether there is an
IPv4 header, and whether a UDP datagram follows it.

Everything that has to do with frames is built on whatever slicer there is.
What a slicer can be relied upon for is said where it is relied upon, and not
here. One slicer comes with the library, `Slicer.standard`.
-/

namespace FlowTelemetry.Network

/-- Why octets were refused. Of that only the text is of interest. -/
structure Refusal where
  message : String
  deriving DecidableEq, Repr

/-- The IP header that was found, and of an IPv4 header where it comes from. -/
inductive IpHeader where
  | ipv4 (source : Address)
  | ipv6
  deriving DecidableEq, Repr

/-- What follows the IP header. -/
inductive Segment where
  /-- A UDP datagram: the sender's port and the octets after the header. -/
  | datagram (port : UInt16) (payload : Octets)
  | other
  deriving DecidableEq, Repr

/-- What octets turned out to hold. -/
structure Contents where
  /-- Absent in frames with something other than an IP packet. -/
  header : Option IpHeader
  /-- Absent if it is not shown, such as in fragments. -/
  segment : Option Segment
  deriving DecidableEq, Repr

/-- **Whatever takes frames apart**, down to the datagrams in them. -/
class Slicer where
  /-- Takes an Ethernet frame apart. -/
  ofEthernet : Octets → Except Refusal Contents
  /-- Takes an IP packet apart that has nothing in front of it. -/
  ofIp : Octets → Except Refusal Contents

end FlowTelemetry.Network

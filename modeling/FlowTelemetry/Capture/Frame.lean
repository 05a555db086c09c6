import FlowTelemetry.Octets.Hex
import FlowTelemetry.Network.Link
import FlowTelemetry.Time.Timestamp

/-!
# Captured frames

Messages are captured on their way, and so come with everything that was
around them. Capturing on an Ethernet interface yields Ethernet frames. On
the loopback interface there are four octets in front of the packet, giving
its address family as a number in the byte order of the capturing host. A
family of zero means that there is no packet, and that the message follows
at once; whoever sent it is unknown.

The byte order is not known either. All families that are in use are small
numbers, so of the two ways to read the four octets the one that gives the
smaller number is taken to be right.

Taking a packet apart, with or without an Ethernet header, is left to a
`Network.Slicer`.

A frame without a message in it is not an error of this program, but someone
will want to know why it was dropped. A `FrameError` therefore keeps the
whole frame beside the reason.
-/

namespace FlowTelemetry

/-- How captured frames begin. -/
inductive LinkType where
  /-- Four octets of address family. -/
  | loopback
  /-- An Ethernet header. -/
  | ethernet
  deriving DecidableEq, Repr

namespace LinkType

/-- The number of a link type in capture files. -/
def number : LinkType → UInt32
  | loopback => 0
  | ethernet => 1

/-- The link type with the given number. -/
def ofNumber? (n : UInt32) : Option LinkType :=
  if n = 0 then some loopback else if n = 1 then some ethernet else none

/-- The name of a link type. -/
def name : LinkType → String
  | loopback => "Loopback"
  | ethernet => "Ethernet"

end LinkType

/-- A frame as it was captured. -/
structure Frame where
  link : LinkType
  /-- When the frame was captured. -/
  timestamp : Timestamp
  octets : Octets
  deriving DecidableEq, Repr

/-- What is left of a frame when everything around the message is gone. -/
structure Datagram where
  timestamp : Timestamp
  /-- Who sent the message. -/
  source : Endpoint
  /-- The octets of the message. -/
  payload : Octets
  deriving DecidableEq, Repr

namespace FrameError

/-- Why a frame holds no datagram. -/
inductive Reason where
  | shortLoopback
  | unknownFamily (family : UInt32)
  | malformed (refusal : Network.Refusal)
  | notIpv4
  | notUdp
  deriving DecidableEq, Repr

/-- The reason as a text. -/
def Reason.message : Reason → String
  | shortLoopback => "short loopback header"
  | unknownFamily family => s!"unknown address family {family.toNat}"
  | malformed refusal => "malformed frame: " ++ refusal.message
  | notIpv4 => "not an IPv4 packet"
  | notUdp => "not a UDP datagram"

end FrameError

/-- A frame without a datagram in it. -/
structure FrameError where
  reason : FrameError.Reason
  /-- All the octets of the frame. -/
  raw : Octets
  deriving DecidableEq, Repr

/-- The reason, a bar and the digits of the frame. -/
def FrameError.text (e : FrameError) : String :=
  e.reason.message ++ "|" ++ Hex.text e.raw

namespace Frame

/-- The address family of a loopback frame without a packet. -/
def unspecifiedFamily : UInt32 := 0

/-- The address family of a loopback frame with an IPv4 packet. -/
def ipv4Family : UInt32 := 2

/-- The address family in four octets of unknown byte order. -/
def family (a b c d : UInt8) : UInt32 :=
  min (Octets.uint32 a b c d) (Octets.uint32 d c b a)

/-- The sender and the message in what a frame turned out to hold. -/
def ofContents (contents : Network.Contents) : Except FrameError.Reason (Endpoint × Octets) :=
  match contents.header with
  | some (.ipv4 address) =>
    match contents.segment with
    | some (.datagram port payload) => .ok (⟨address, port⟩, payload)
    | _ => .error .notUdp
  | _ => .error .notIpv4

/-- The sender and the message in a frame that was sliced. -/
def ofSliced (sliced : Except Network.Refusal Network.Contents) :
    Except FrameError.Reason (Endpoint × Octets) :=
  sliced.mapError .malformed >>= ofContents

variable [Network.Slicer]

/-- The sender and the message in a loopback frame. -/
def unwrapLoopback : Octets → Except FrameError.Reason (Endpoint × Octets)
  | a :: b :: c :: d :: rest =>
    let family := family a b c d
    if family = unspecifiedFamily then .ok (.unspecified, rest)
    else if family = ipv4Family then ofSliced (Network.Slicer.ofIp rest)
    else .error (.unknownFamily family)
  | _ => .error .shortLoopback

/-- The sender and the message in the octets of a frame. -/
def unwrapOctets (link : LinkType) (bs : Octets) :
    Except FrameError.Reason (Endpoint × Octets) :=
  match link with
  | .loopback => unwrapLoopback bs
  | .ethernet => ofSliced (Network.Slicer.ofEthernet bs)

/-- The datagram in a frame. -/
def unwrap (f : Frame) : Except FrameError Datagram :=
  match unwrapOctets f.link f.octets with
  | .ok (source, payload) => .ok ⟨f.timestamp, source, payload⟩
  | .error reason => .error ⟨reason, f.octets⟩

end Frame

end FlowTelemetry

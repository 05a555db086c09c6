import FlowTelemetry.Proofs.Capture.Headers

/-!
# Messages in frames

A frame with a message in it is the message with headers around it, and most
of what is in these headers does not matter. An `Envelope` is all of that for
the IPv4 header and the UDP header: whatever it holds, these are headers of a
message (`Envelope.isHeader`, `Envelope.isUdpHeader`), and the frame is unwrapped
into the sender and the message that it was put together from.

What does matter is put into the headers here and is no part of the envelope:
the address and the port of the sender, the three lengths, and the numbers
that say that a UDP datagram follows. Checksums are in the envelope, since
they are not looked at.

A packet says how long it is. So the octets that were captured behind it,
such as the padding of a short Ethernet frame, are not taken for a part of the
message. Without a packet there is nothing to tell where a message ends, and it
goes on to the end of the frame.
-/

namespace FlowTelemetry

namespace Network

/-- The number of octets of the longest message that fits into a packet whose
header has no options. -/
def maxPayload : Nat := 65507

/-- **What is around a message** in an IPv4 packet: the fields of its header
and of the UDP header that say neither who sent the message nor how long it
is. Any values will do, as long as the packet is no fragment and the options
fill whole words. -/
structure Envelope where
  service : UInt8
  identification : UInt16
  /-- Three flags, the last of which says that more fragments follow, and the
  offset of the fragment. -/
  fragmentation : UInt16
  timeToLive : UInt8
  packetChecksum : UInt16
  destination : Endpoint
  /-- What follows the fields that every header has. -/
  options : Octets
  datagramChecksum : UInt16
  unfragmented : fragmentation.toNat % 0x4000 = 0
  wholeWords : options.length % 4 = 0
  fewOptions : options.length ≤ 40

namespace Envelope

variable (e : Envelope) (source : Endpoint) (payload : Octets)

/-- The number of octets of the IPv4 header. -/
def headerLength : Nat := Ipv4.minHeaderLength + e.options.length

/-- The number of octets of a packet with a message of the given length. -/
def packetLength (length : Nat) : Nat := e.headerLength + (Segment.udpHeaderLength + length)

/-- The UDP header before a message of the given length. -/
def udpHeader (length : Nat) : Octets :=
  Octets.ofUInt16 source.port ++ Octets.ofUInt16 e.destination.port ++
    Octets.ofUInt16 (UInt16.ofNat (Segment.udpHeaderLength + length)) ++
    Octets.ofUInt16 e.datagramChecksum

/-- The IPv4 header before a datagram with a message of the given length. -/
def header (length : Nat) : Octets :=
  [UInt8.ofNat (0x40 + e.headerLength / 4), e.service] ++
    Octets.ofUInt16 (UInt16.ofNat (e.packetLength length)) ++
    Octets.ofUInt16 e.identification ++ Octets.ofUInt16 e.fragmentation ++
    [e.timeToLive, UInt8.ofNat Segment.udp] ++ Octets.ofUInt16 e.packetChecksum ++
    source.address.octets ++ e.destination.address.octets ++ e.options

/-- The IPv4 packet with a message. -/
def packet : Octets :=
  e.header source payload.length ++ (e.udpHeader source payload.length ++ payload)

/-- **A message fits** if it leaves room for the headers. Without options that
is to have at most `maxPayload` octets. -/
def Fits : Prop := payload.length + e.options.length ≤ maxPayload

instance : Decidable (e.Fits payload) := Nat.decLe _ _

theorem length_header (length : Nat) : (e.header source length).length = e.headerLength := by
  unfold header headerLength
  simp only [List.length_append, Octets.length_ofUInt16, List.length_cons, List.length_nil]
  rfl

/-- The lengths of a packet with a message that fits can be written. -/
theorem Fits.packetLength_lt {e : Envelope} {payload : Octets} (h : e.Fits payload) :
    e.packetLength payload.length < 0x10000 := by
  unfold Fits maxPayload at h
  unfold packetLength headerLength Ipv4.minHeaderLength Segment.udpHeaderLength
  omega

variable {e payload}

/-- The header of an envelope is one, whatever else it holds. -/
theorem isHeader (hfits : e.Fits payload) :
    Ipv4.IsHeader source.address (8 + payload.length) (e.header source payload.length) := by
  have hshort := e.fewOptions
  have hwords := e.wholeWords
  have hlength : (e.header source payload.length).length = 20 + e.options.length :=
    e.length_header source payload.length
  have hfirst : ((e.header source payload.length).getD 0 0).toNat =
      0x40 + (20 + e.options.length) / 4 := by
    show (UInt8.ofNat (0x40 + (20 + e.options.length) / 4)).toNat = _
    rw [UInt8.toNat_ofNat']
    omega
  have htotal : (e.header source payload.length).uint16At 2 =
      UInt16.ofNat (e.packetLength payload.length) := Octets.uint16_ofUInt16 _
  have hfragmentation : (e.header source payload.length).uint16At 6 = e.fragmentation :=
    Octets.uint16_ofUInt16 _
  refine ⟨?_, ?_, ?_, ?_, ?_, rfl, rfl⟩
  · rw [versionOf, hfirst]
    omega
  · rw [hfirst, hlength]
    omega
  · rw [hlength]
    exact Nat.le_add_right _ _
  · rw [htotal, UInt16.toNat_ofNat_of_lt' hfits.packetLength_lt, hlength]
    rfl
  · rw [hfragmentation, e.unfragmented]

theorem isUdpHeader (hfits : e.Fits payload) :
    Segment.IsUdpHeader source.port payload.length (e.udpHeader source payload.length) := by
  have htotal : (e.udpHeader source payload.length).uint16At 4 =
      UInt16.ofNat (8 + payload.length) := Octets.uint16_ofUInt16 _
  have hlt : 8 + payload.length < 0x10000 :=
    Nat.lt_of_le_of_lt (Nat.le_add_left _ _) hfits.packetLength_lt
  exact ⟨rfl, (Octets.uint16_ofUInt16 _).symm, by rw [htotal, UInt16.toNat_ofNat_of_lt' hlt]⟩

end Envelope

end Network

namespace Frame

/-! ## Wrapping messages up -/

/-- **How a message is wrapped up** in a frame. Behind a packet more octets may
have been captured, such as the padding of short Ethernet frames. -/
inductive Wrapping where
  /-- Behind an Ethernet header with the given two addresses. -/
  | ethernet (addresses : Octets) (length_eq : addresses.length = 12)
    (envelope : Network.Envelope) (trailer : Octets)
  /-- Behind the address family of IPv4, in either byte order. -/
  | loopback (bigEndian : Bool) (envelope : Network.Envelope) (trailer : Octets)
  /-- Behind the address family that stands for no packet. -/
  | bare

namespace Wrapping

/-- How the frame begins. -/
def link : Wrapping → LinkType
  | ethernet _ _ _ _ => .ethernet
  | loopback _ _ _ => .loopback
  | bare => .loopback

/-- The octets of the frame. -/
def octets (source : Endpoint) (payload : Octets) : Wrapping → Octets
  | ethernet addresses _ envelope trailer =>
    addresses ++ (Octets.ofUInt16 0x0800 ++ (envelope.packet source payload ++ trailer))
  | loopback true envelope trailer => [0, 0, 0, 2] ++ (envelope.packet source payload ++ trailer)
  | loopback false envelope trailer => [2, 0, 0, 0] ++ (envelope.packet source payload ++ trailer)
  | bare => [0, 0, 0, 0] ++ payload

/-- The frame with a message, captured at the given time. -/
def frame (w : Wrapping) (timestamp : Timestamp) (source : Endpoint) (payload : Octets) : Frame :=
  ⟨w.link, timestamp, w.octets source payload⟩

/-- **What can be wrapped up this way**: in a packet any message that fits, and
without a packet only messages of which it is not known who sent them. -/
def Admits (source : Endpoint) (payload : Octets) : Wrapping → Prop
  | ethernet _ _ envelope _ => envelope.Fits payload
  | loopback _ envelope _ => envelope.Fits payload
  | bare => source = .unspecified

instance (source : Endpoint) (payload : Octets) :
    (w : Wrapping) → Decidable (w.Admits source payload)
  | ethernet _ _ envelope _ => inferInstanceAs (Decidable (envelope.Fits payload))
  | loopback _ envelope _ => inferInstanceAs (Decidable (envelope.Fits payload))
  | bare => inferInstanceAs (Decidable (source = .unspecified))

end Wrapping

/-- **What was wrapped up is unwrapped**, and nothing more. -/
theorem unwrap_frame [Network.Slicer] {rules : Network.Rules}
    (hslicer : Network.Slicer.GoesBy rules) (hlengths : rules.ByLengths) {w : Wrapping}
    {source : Endpoint} {payload : Octets} (h : w.Admits source payload)
    (timestamp : Timestamp) :
    (w.frame timestamp source payload).unwrap = .ok ⟨timestamp, source, payload⟩ := by
  have hpacket {link : LinkType} {front : Octets} (hfront : BeforeIpv4 link front)
      {envelope : Network.Envelope} (hfits : envelope.Fits payload) (trailer : Octets) :
      unwrap ⟨link, timestamp, front ++ (envelope.packet source payload ++ trailer)⟩ =
        .ok ⟨timestamp, source, payload⟩ :=
    unwrap_packet hslicer hlengths hfront (envelope.isHeader source hfits)
      (envelope.isUdpHeader source hfits) trailer timestamp
  cases w with
  | ethernet addresses hlength envelope trailer =>
    have hframe := hpacket (.ethernet hlength) h trailer
    rw [List.append_assoc] at hframe
    exact hframe
  | loopback bigEndian envelope trailer =>
    cases bigEndian with
    | true => exact hpacket .bigEndian h trailer
    | false => exact hpacket .littleEndian h trailer
  | bare =>
    rw [show source = _ from h]
    exact unwrap_bare payload timestamp

/-- Two octets of a message in a packet with options, and two of padding. -/
example : (Wrapping.ethernet [1, 1, 1, 1, 1, 1, 2, 2, 2, 2, 2, 2] rfl
    { service := 0, identification := 1, fragmentation := 0x4000, timeToLive := 64
      packetChecksum := 0, destination := ⟨⟨192, 0, 2, 1⟩, 5300⟩, options := [1, 1, 1, 0]
      datagramChecksum := 0, unfragmented := rfl, wholeWords := rfl, fewOptions := by decide }
    [0, 0]).octets ⟨⟨192, 0, 2, 7⟩, 40000⟩ [9, 8] =
    [1, 1, 1, 1, 1, 1, 2, 2, 2, 2, 2, 2, 8, 0,
      0x46, 0, 0, 34, 0, 1, 0x40, 0, 64, 17, 0, 0, 192, 0, 2, 7, 192, 0, 2, 1, 1, 1, 1, 0,
      0x9C, 0x40, 0x14, 0xB4, 0, 10, 0, 0, 9, 8, 0, 0] := by decide

end Frame

end FlowTelemetry

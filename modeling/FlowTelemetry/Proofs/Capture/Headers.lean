import FlowTelemetry.Capture.Frame
import FlowTelemetry.Proofs.Network.Standard

/-!
# Messages behind headers

A message is found in a frame whatever else is in the headers around it. They
are octets that came from elsewhere, and all that is known of them is what the few
fields hold that matter: `Ipv4.IsHeader` and `Segment.IsUdpHeader` ask for no more
than the lengths, the sender, and that a UDP datagram follows which is not
fragmented.

It takes a slicer that goes by these lengths. The rest is to find the packet behind
either of the two headers that may come before it (`unwrap_packet`).
-/

namespace FlowTelemetry

namespace Frame

variable [Network.Slicer]

section Outcomes

variable {f : Frame}

/-- A frame is unwrapped if its octets are. -/
theorem unwrap_eq_ok {source : Endpoint} {payload : Octets}
    (h : unwrapOctets f.link f.octets = .ok (source, payload)) :
    f.unwrap = .ok ⟨f.timestamp, source, payload⟩ := by
  rw [unwrap, h]

theorem unwrap_eq_error {reason : FrameError.Reason}
    (h : unwrapOctets f.link f.octets = .error reason) : f.unwrap = .error ⟨reason, f.octets⟩ := by
  rw [unwrap, h]

end Outcomes

/-- Behind the address family of IPv4 there is a packet. -/
theorem unwrapLoopback_of_family {a b c d : UInt8} (h : family a b c d = ipv4Family)
    (bs : Octets) :
    unwrapLoopback (a :: b :: c :: d :: bs) = ofSliced (Network.Slicer.ofIp bs) := by
  simp only [unwrapLoopback, h, if_neg (by decide : ipv4Family ≠ unspecifiedFamily), if_true]

/-- **What comes before an IPv4 packet** in a frame: an Ethernet header that
announces one, or the address family of IPv4 in the byte order of some host. -/
inductive BeforeIpv4 : LinkType → Octets → Prop where
  | ethernet {addresses : Octets} :
      addresses.length = 12 → BeforeIpv4 .ethernet (addresses ++ [0x08, 0x00])
  | littleEndian : BeforeIpv4 .loopback [2, 0, 0, 0]
  | bigEndian : BeforeIpv4 .loopback [0, 0, 0, 2]

section Rules

variable {rules : Network.Rules}

omit [Network.Slicer] in
/-- If there is something that the octets hold, then it was found. -/
theorem ofSliced_of_toOption {x : Except Network.Refusal Network.Contents}
    {contents : Network.Contents} (h : x.toOption = some contents) :
    ofSliced x = ofContents contents := by
  cases x with
  | ok c => exact congrArg ofContents (Option.some.inj h)
  | error refusal => exact nomatch h

/-- **A packet is taken apart by the rules**, whichever header comes before it. -/
theorem unwrapOctets_of_rules (hslicer : Network.Slicer.GoesBy rules) {link : LinkType}
    {front : Octets} (hfront : BeforeIpv4 link front) {packet : Octets}
    (h4 : Network.versionOf packet = 4) {contents : Network.Contents}
    (h : rules.ipv4 packet = some contents) :
    unwrapOctets link (front ++ packet) = ofContents contents := by
  have hip : ofSliced (Network.Slicer.ofIp packet) = ofContents contents :=
    ofSliced_of_toOption ((hslicer.ofIp h4).trans h)
  cases hfront with
  | ethernet haddresses =>
    exact ofSliced_of_toOption ((hslicer.ofEthernet packet haddresses).trans h)
  | littleEndian =>
    have hfamily : family 2 0 0 0 = ipv4Family := by decide
    exact (unwrapLoopback_of_family hfamily packet).trans hip
  | bigEndian =>
    have hfamily : family 0 0 0 2 = ipv4Family := by decide
    exact (unwrapLoopback_of_family hfamily packet).trans hip

/-- **A packet holds what its headers say.** -/
theorem unwrap_packet (hslicer : Network.Slicer.GoesBy rules) (hlengths : rules.ByLengths)
    {link : LinkType} {source : Endpoint} {front ip udp payload : Octets}
    (hfront : BeforeIpv4 link front)
    (hip : Network.Ipv4.IsHeader source.address (8 + payload.length) ip)
    (hudp : Network.Segment.IsUdpHeader source.port payload.length udp) (trailer : Octets)
    (timestamp : Timestamp) :
    unwrap ⟨link, timestamp, front ++ (ip ++ (udp ++ payload) ++ trailer)⟩ =
      .ok ⟨timestamp, source, payload⟩ := by
  have hlength : 8 + payload.length = (udp ++ payload).length := by
    rw [List.length_append, hudp.length_eq]
  have hsegment : rules.udp (udp ++ payload) = some (.datagram source.port payload) := by
    simpa only [List.append_nil] using hlengths.udp [] hudp
  have hpacket : rules.ipv4 (ip ++ (udp ++ payload) ++ trailer) =
      some ⟨some (.ipv4 source.address), some (.datagram source.port payload)⟩ := by
    rw [hlengths.ipv4 trailer (hlength ▸ hip), hsegment]
    rfl
  have h4 : Network.versionOf (ip ++ (udp ++ payload) ++ trailer) = 4 := by
    have hmin := hip.min_le
    rw [List.append_assoc, Network.versionOf, List.getD_append _ _ _ _ (by omega)]
    exact hip.version
  exact unwrap_eq_ok (f := ⟨link, timestamp, _⟩)
    (unwrapOctets_of_rules hslicer hfront h4 hpacket)

/-- Without a packet the message follows at once. -/
theorem unwrap_bare (payload : Octets) (timestamp : Timestamp) :
    unwrap ⟨.loopback, timestamp, [0, 0, 0, 0] ++ payload⟩ =
      .ok ⟨timestamp, .unspecified, payload⟩ :=
  rfl

/-- **A frame holds what its headers say**, if the slicer goes by the lengths in
them. Whatever else is in the headers, and whatever was captured behind the
packet, what is unwrapped is the sender and the message. Behind the address family
zero there is a message without a sender. -/
theorem unwrap_headers (hslicer : Network.Slicer.GoesBy rules) (hlengths : rules.ByLengths) :
    (∀ (link : LinkType) (source : Endpoint) (front ip udp payload trailer : Octets)
      (timestamp : Timestamp), BeforeIpv4 link front →
      Network.Ipv4.IsHeader source.address (8 + payload.length) ip →
      Network.Segment.IsUdpHeader source.port payload.length udp →
      unwrap ⟨link, timestamp, front ++ ip ++ udp ++ payload ++ trailer⟩ =
        .ok ⟨timestamp, source, payload⟩) ∧
    ∀ (payload : Octets) (timestamp : Timestamp),
      unwrap ⟨.loopback, timestamp, [0, 0, 0, 0] ++ payload⟩ =
        .ok ⟨timestamp, .unspecified, payload⟩ := by
  refine ⟨?_, unwrap_bare⟩
  intro link source front ip udp payload trailer timestamp hfront hip hudp
  have hframe : front ++ ip ++ udp ++ payload ++ trailer =
      front ++ (ip ++ (udp ++ payload) ++ trailer) := by
    simp only [List.append_assoc]
  rw [hframe]
  exact unwrap_packet hslicer hlengths hfront hip hudp trailer timestamp

end Rules

end Frame

/-- Two octets of a message behind a header with options, and two of padding. -/
theorem Frame.unwrap_headers_padded :
    let front : Octets := [1, 1, 1, 1, 1, 1, 2, 2, 2, 2, 2, 2] ++ [0x08, 0x00]
    let ip : Octets := [0x46, 0, 0, 34, 0, 1, 0x40, 0, 64, 17, 0, 0, 192, 0, 2, 7, 192, 0, 2, 1,
      1, 1, 1, 0]
    let udp : Octets := [0x9C, 0x40, 0x14, 0xB4, 0, 10, 0, 0]
    Network.Slicer.GoesBy Network.Rules.standard ∧ Network.Rules.standard.ByLengths ∧
      BeforeIpv4 .ethernet front ∧ Network.Ipv4.IsHeader ⟨192, 0, 2, 7⟩ (8 + 2) ip ∧
      Network.Segment.IsUdpHeader 40000 2 udp ∧
      unwrap ⟨.ethernet, ⟨0, 0⟩, front ++ ip ++ udp ++ [9, 8] ++ [0, 0]⟩ =
        .ok ⟨⟨0, 0⟩, ⟨⟨192, 0, 2, 7⟩, 40000⟩, [9, 8]⟩ := by
  intro front ip udp
  have hfront : BeforeIpv4 .ethernet front := .ethernet rfl
  have hip : Network.Ipv4.IsHeader ⟨192, 0, 2, 7⟩ (8 + 2) ip := by
    constructor <;> decide
  have hudp : Network.Segment.IsUdpHeader 40000 2 udp := by
    constructor <;> decide
  have hunwrap := (unwrap_headers Network.Slicer.goesBy_standard Network.Rules.byLengths_standard).1
    _ ⟨⟨192, 0, 2, 7⟩, 40000⟩ _ _ _ [9, 8] [0, 0] ⟨0, 0⟩ hfront hip hudp
  exact ⟨Network.Slicer.goesBy_standard, Network.Rules.byLengths_standard, hfront, hip, hudp,
    hunwrap⟩

end FlowTelemetry

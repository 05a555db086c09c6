import FlowTelemetry.Proofs.Capture.Headers

/-!
# The two links

The same IPv4 packet may be captured behind an Ethernet header or behind the four
octets of a loopback header, and it should not matter which. It does not if there
is one set of rules by which the slicer takes packets apart. Then a packet either
is nothing by the rules, and both frames are malformed, or it is something, and
what is made of that does not depend on the frame.

What is written down as wrong with a malformed frame may be something else in
either case, since it is up to the slicer how much of a frame it tells about.
-/

namespace FlowTelemetry

namespace Frame

/-- An IPv4 header leads to a datagram or to nothing that is one. -/
theorem ofContents_of_ipv4 {contents : Network.Contents} {address : Address}
    (h : contents.header = some (.ipv4 address)) :
    (∃ source payload, ofContents contents = .ok (source, payload)) ∨
      ofContents contents = .error .notUdp := by
  unfold ofContents
  rw [h]
  dsimp only
  split
  · exact .inl ⟨_, _, rfl⟩
  · exact .inr rfl

/-- What is not in accordance with the rules is malformed. -/
theorem exists_ofSliced_malformed {x : Except Network.Refusal Network.Contents}
    (h : x.toOption = none) : ∃ refusal, ofSliced x = .error (.malformed refusal) := by
  cases x with
  | ok contents => exact nomatch h
  | error refusal => exact ⟨refusal, rfl⟩

variable [Network.Slicer] {rules : Network.Rules}

/-- By itself a packet is taken apart by the rules as well, unless it is taken for
an IPv6 packet. -/
theorem toOption_ofIp (hslicer : Network.Slicer.GoesBy rules) (hversioned : rules.Versioned)
    {packet : Octets} (h6 : Network.versionOf packet ≠ 6) :
    (Network.Slicer.ofIp packet).toOption = rules.ipv4 packet := by
  by_cases h4 : Network.versionOf packet = 4
  · exact hslicer.ofIp h4
  · rw [hslicer.unknown h4 h6]
    cases hrules : rules.ipv4 packet with
    | none => rfl
    | some contents => exact absurd (hversioned.version_eq hrules) h4

/-- **An IPv4 packet is unwrapped alike** behind an Ethernet header and behind a
loopback header, whatever is wrong with it, if the slicer has one set of rules for
both. Both frames yield the same datagram, or both are refused for the same reason,
which is that the packet is malformed or that it holds no UDP datagram. -/
theorem unwrap_ethernet_loopback (hslicer : Network.Slicer.GoesBy rules)
    (hversioned : rules.Versioned) {addresses packet : Octets}
    (haddresses : addresses.length = 12) (h6 : (packet.getD 0 0).toNat / 16 ≠ 6)
    (timestamp : Timestamp) :
    let ethernet : Frame := ⟨.ethernet, timestamp, addresses ++ [0x08, 0x00] ++ packet⟩
    let loopback : Frame := ⟨.loopback, timestamp, [2, 0, 0, 0] ++ packet⟩
    (∃ source payload, ethernet.unwrap = .ok ⟨timestamp, source, payload⟩ ∧
        loopback.unwrap = .ok ⟨timestamp, source, payload⟩) ∨
      (∃ refusal refusal', ethernet.unwrap = .error ⟨.malformed refusal, ethernet.octets⟩ ∧
        loopback.unwrap = .error ⟨.malformed refusal', loopback.octets⟩) ∨
      ethernet.unwrap = .error ⟨.notUdp, ethernet.octets⟩ ∧
        loopback.unwrap = .error ⟨.notUdp, loopback.octets⟩ := by
  intro ethernet loopback
  have hethernet : unwrapOctets ethernet.link ethernet.octets =
      ofSliced (Network.Slicer.ofEthernet (addresses ++ [0x08, 0x00] ++ packet)) := rfl
  have hfamily : family 2 0 0 0 = ipv4Family := by decide
  have hloopback : unwrapOctets loopback.link loopback.octets =
      ofSliced (Network.Slicer.ofIp packet) := unwrapLoopback_of_family hfamily packet
  have hrules := hslicer.ofEthernet packet haddresses
  have hrules' := toOption_ofIp hslicer hversioned h6
  cases hcontents : rules.ipv4 packet with
  | none =>
    obtain ⟨refusal, hrefusal⟩ := exists_ofSliced_malformed (hrules.trans hcontents)
    obtain ⟨refusal', hrefusal'⟩ := exists_ofSliced_malformed (hrules'.trans hcontents)
    exact .inr (.inl ⟨refusal, refusal', unwrap_eq_error (hethernet.trans hrefusal),
      unwrap_eq_error (hloopback.trans hrefusal')⟩)
  | some contents =>
    have hfound := hethernet.trans (ofSliced_of_toOption (hrules.trans hcontents))
    have hfound' := hloopback.trans (ofSliced_of_toOption (hrules'.trans hcontents))
    obtain ⟨address, hheader⟩ := hversioned.header_eq hcontents
    obtain ⟨source, payload, hdatagram⟩ | hother := ofContents_of_ipv4 hheader
    · exact .inl ⟨source, payload, unwrap_eq_ok (hfound.trans hdatagram),
        unwrap_eq_ok (hfound'.trans hdatagram)⟩
    · exact .inr (.inr ⟨unwrap_eq_error (hfound.trans hother),
        unwrap_eq_error (hfound'.trans hother)⟩)

end Frame

/-- A packet with a datagram that claims one octet more than there is. -/
def Frame.overrun : Octets :=
  [0x45, 0, 0, 29, 0, 0, 0, 0, 64, 17, 0, 0, 192, 0, 2, 7, 192, 0, 2, 1,
    0x9C, 0x40, 0x14, 0xB4, 0, 10, 0, 0, 9]

/-- Both frames with it are malformed. -/
theorem Frame.unwrap_ethernet_loopback_overrun :
    let addresses : Octets := [1, 1, 1, 1, 1, 1, 2, 2, 2, 2, 2, 2]
    let ethernet : Frame := ⟨.ethernet, ⟨0, 0⟩, addresses ++ [0x08, 0x00] ++ overrun⟩
    let loopback : Frame := ⟨.loopback, ⟨0, 0⟩, [2, 0, 0, 0] ++ overrun⟩
    Network.Slicer.GoesBy Network.Rules.standard ∧ Network.Rules.standard.Versioned ∧
      addresses.length = 12 ∧ (overrun.getD 0 0).toNat / 16 ≠ 6 ∧
      ∃ refusal refusal', ethernet.unwrap = .error ⟨.malformed refusal, ethernet.octets⟩ ∧
        loopback.unwrap = .error ⟨.malformed refusal', loopback.octets⟩ := by
  intro addresses ethernet loopback
  have haddresses : addresses.length = 12 := rfl
  have h6 : (overrun.getD 0 0).toNat / 16 ≠ 6 := by decide
  have hmalformed : ∃ refusal, loopback.unwrap = .error ⟨.malformed refusal, loopback.octets⟩ :=
    ⟨_, by with_unfolding_all rfl⟩
  obtain ⟨refusal, hloopback⟩ := hmalformed
  refine ⟨Network.Slicer.goesBy_standard, Network.Rules.versioned_standard, haddresses, h6, ?_⟩
  obtain ⟨_, _, -, hok⟩ | hmalformed | ⟨-, herror⟩ :=
    unwrap_ethernet_loopback Network.Slicer.goesBy_standard Network.Rules.versioned_standard
      haddresses h6 ⟨0, 0⟩
  · cases hloopback.symm.trans hok
  · exact hmalformed
  · cases hloopback.symm.trans herror

end FlowTelemetry

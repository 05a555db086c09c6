import FlowTelemetry.Proofs.Network.Placement

/-!
# The slicer of this library

`Slicer.standard` can be relied upon for everything that is asked of slicers. The
rules that it goes by are `Rules.standard`: those of the packets that it takes
apart, which have room for the shortest header and are of version 4. In front of
its twenty octets a packet may lie anywhere (`toOption_ofEthernet`, `toOption_ofIp`),
and the lengths in its header lead to the datagram (`Ipv4.toOption_parse`) and from
there to the message (`Segment.ofUdp_eq_ok`).
-/

namespace FlowTelemetry

namespace Network

/-- There is room for the shortest IPv4 header, and the version is right. -/
def Ipv4.Plausible (packet : Octets) : Prop :=
  minHeaderLength ≤ packet.length ∧ versionOf packet = 4

instance (packet : Octets) : Decidable (Ipv4.Plausible packet) :=
  inferInstanceAs (Decidable (_ ∧ _))

/-- **The rules of the slicer of this library.** -/
def Rules.standard : Rules where
  ipv4 packet :=
    if Ipv4.Plausible packet then (Ipv4.parse (.whole packet)).toOption else none
  udp segment := (Segment.ofUdp (.whole segment)).toOption

theorem Rules.ipv4_standard {packet : Octets} (h : Ipv4.Plausible packet) :
    standard.ipv4 packet = (Ipv4.parse (.whole packet)).toOption :=
  if_pos h

theorem Rules.ipv4_standard_eq_none {packet : Octets} (h : ¬ Ipv4.Plausible packet) :
    standard.ipv4 packet = none :=
  if_neg h

/-! ## One set of rules -/

theorem toOption_ofEthernet {addresses : Octets} (haddresses : addresses.length = 12)
    (packet : Octets) :
    (ofEthernet (addresses ++ (Octets.ofUInt16 0x0800 ++ packet))).toOption =
      Rules.standard.ipv4 packet := by
  let s := (Stretch.whole packet).placed ethernetHeaderLength .slice
  rw [ofEthernet_eq haddresses]
  by_cases h : Ipv4.Plausible packet
  · have hparse : ofEtherType 2 etherIpv4 s = Ipv4.parse s := ofEtherType_eq_parse 2 h.1 h.2
    rw [Rules.ipv4_standard h, hparse]
    exact (Ipv4.parse_alike _ _ _).toOption_eq.symm
  · obtain ⟨fault, hfault⟩ := exists_ofEtherType_error 2 (s := s) h
    rw [Rules.ipv4_standard_eq_none h, hfault]
    rfl

theorem toOption_ofIp {packet : Octets} (h6 : versionOf packet ≠ 6) :
    (ofIp packet).toOption = Rules.standard.ipv4 packet := by
  by_cases h : Ipv4.Plausible packet
  · rw [Rules.ipv4_standard h, ofIp_eq_parse (Nat.le_trans (by decide) h.1) h.2]
  · obtain ⟨fault, hfault⟩ := exists_ofIp_error h6 h
    rw [Rules.ipv4_standard_eq_none h, hfault]
    rfl

/-- The text of a fault is of no account. -/
theorem toOption_mapError {α ε ε' : Type} (x : Except ε α) (f : ε → ε') :
    (x.mapError f).toOption = x.toOption := by
  cases x <;> rfl

theorem Slicer.goesBy_standard : Slicer.GoesBy Rules.standard where
  ofEthernet packet haddresses := by
    rw [List.append_assoc]
    exact (toOption_mapError _ _).trans (toOption_ofEthernet haddresses packet)
  ofIp h4 := (toOption_mapError _ _).trans (toOption_ofIp (h4.trans_ne (by decide)))
  unknown h4 h6 := by
    refine ((toOption_mapError _ _).trans (toOption_ofIp h6)).trans ?_
    exact Rules.ipv4_standard_eq_none fun h => h4 h.2

theorem Rules.plausible_of_ipv4_standard {packet : Octets} {contents : Contents}
    (h : standard.ipv4 packet = some contents) : Ipv4.Plausible packet :=
  Decidable.byContradiction fun hnot => nomatch h.symm.trans (ipv4_standard_eq_none hnot)

theorem Rules.versioned_standard : Rules.standard.Versioned where
  version_eq h := (plausible_of_ipv4_standard h).2
  header_eq {packet contents} h := by
    rw [ipv4_standard (plausible_of_ipv4_standard h)] at h
    cases hparse : Ipv4.parse (.whole packet) with
    | ok c =>
      rw [hparse] at h
      exact Option.some.inj h ▸ (Ipv4.parse_yields _ _ hparse).header_eq
    | error fault =>
      rw [hparse] at h
      exact nomatch h

/-! ## Lengths -/

section Octets

variable {s : Stretch} {header rest : Octets}

/-- What is in a header is looked up in the header. -/
theorem Stretch.octet_of_append (hs : s.octets = header ++ rest) {i : Nat} (h : i < header.length) :
    s.octet i = header.getD i 0 := by
  rw [octet, hs, List.getD_append _ _ _ _ h]

theorem Stretch.u16_of_append (hs : s.octets = header ++ rest) {i : Nat}
    (h : i + 1 < header.length) : s.u16 i = header.uint16At i := by
  rw [u16, octet_of_append hs (Nat.lt_of_succ_lt h), octet_of_append hs h]
  rfl

end Octets

/-- **A datagram holds the message that its length tells.** -/
theorem Segment.ofUdp_eq_ok {port : UInt16} {header payload trailer : Octets}
    (h : IsUdpHeader port payload.length header) {s : Stretch}
    (hs : s.octets = header ++ (payload ++ trailer)) :
    ofUdp s = .ok (.datagram port payload) := by
  have hheader := h.length_eq
  have hsize : s.octets.length = 8 + (payload.length + trailer.length) := by
    rw [hs, List.length_append, List.length_append, hheader]
  have hport : s.u16 0 = port := by
    rw [Stretch.u16_of_append hs (by omega), h.port_eq]
  have hlength : (s.u16 4).toNat = 8 + payload.length := by
    rw [Stretch.u16_of_append hs (by omega), h.total]
  have hpayload : (s.octets.take (8 + payload.length)).drop 8 = payload := by
    rw [hs, ← List.append_assoc, List.take_left' (by rw [List.length_append, hheader]),
      List.drop_left' hheader]
  -- A length of zero would stand for all there is, but the header has a length.
  have hshort : ¬ 8 + payload.length < 8 := by omega
  have hne : 8 + payload.length ≠ 0 := by omega
  simp only [ofUdp, udpHeaderLength, bind, Except.bind, pure, Except.pure, hlength, hport,
    Stretch.require_eq_ok (hsize ▸ Nat.le_add_right _ _ : 8 ≤ s.octets.length),
    Stretch.require_eq_ok (show 8 + payload.length ≤ s.octets.length by omega),
    decide_eq_false hshort, Bool.and_false, Bool.false_eq_true, if_false, if_neg hne, hpayload]

namespace Ipv4

variable {source : Address} {header segment trailer : Octets} {s : Stretch}

/-- The payload of a packet is what the lengths in its header tell. -/
theorem payload_of_isHeader (h : IsHeader source segment.length header)
    (hs : s.octets = header ++ (segment ++ trailer)) :
    ∃ p, payload s = .ok p ∧ p.octets = segment := by
  have hmin := h.min_le
  have hheader : 4 * ((s.octet 0).toNat % 16) = header.length := by
    rw [Stretch.octet_of_append hs (by omega), h.words]
  have hwords : ¬ (s.octet 0).toNat % 16 < 5 := by omega
  have htotal : (s.u16 2).toNat = header.length + segment.length := by
    rw [Stretch.u16_of_append hs (by omega), h.total]
  have hsize : header.length + segment.length ≤ s.octets.length := by
    rw [hs, ← List.append_assoc, List.length_append, List.length_append]
    exact Nat.le_add_right _ _
  have hless : header.length ≤ header.length + segment.length := Nat.le_add_right _ _
  refine ⟨(s.first (header.length + segment.length) .ipv4TotalLength).after header.length, ?_, ?_⟩
  · simp only [payload, bind, Except.bind, pure, Except.pure, hheader, htotal, if_neg hwords,
      Stretch.require_eq_ok (Nat.le_trans hless hsize), Stretch.require_eq_ok hsize,
      if_neg (Nat.not_lt.mpr hless)]
  · show (s.octets.take _).drop _ = _
    rw [hs, ← List.append_assoc, List.take_left' List.length_append, List.drop_left]

/-- **A packet holds its datagram**, and what was captured behind it is not a
part of it. -/
theorem toOption_parse (h : IsHeader source segment.length header)
    (hs : s.octets = header ++ (segment ++ trailer)) :
    (parse s).toOption =
      (Rules.standard.udp segment).map fun x => ⟨some (.ipv4 source), some x⟩ := by
  have hmin := h.min_le
  obtain ⟨p, hpayload, hp⟩ := payload_of_isHeader h hs
  have hprotocol : (s.octet 9).toNat = Segment.udp := by
    rw [Stretch.octet_of_append hs (by omega), h.protocol]
    rfl
  have hfragment : isFragment s = false := by
    rw [isFragment, Stretch.u16_of_append hs (by omega), h.unfragmented]
    rfl
  have hsource : Ipv4.source s = source := by
    rw [Ipv4.source, h.source_eq, Stretch.octet_of_append hs (by omega),
      Stretch.octet_of_append hs (by omega), Stretch.octet_of_append hs (by omega),
      Stretch.octet_of_append hs (by omega)]
  have hsegment : (Segment.ofUdp p).toOption = Rules.standard.udp segment := by
    obtain ⟨_, _, rfl⟩ := Stretch.exists_placed (s := .whole segment) hp
    exact (Segment.ofUdp_alike _ _ _).toOption_eq.symm
  have hparse : parse s = Segment.ofUdp p >>= fun x => .ok ⟨some (.ipv4 source), some x⟩ := by
    rw [parse_eq, hpayload, hprotocol, ← hsource]
    show contents s (Segment.udp, p) = _
    rw [contents, hfragment]
    rfl
  rw [hparse, ← hsegment]
  cases Segment.ofUdp p <;> rfl

end Ipv4

theorem Rules.byLengths_standard : Rules.standard.ByLengths where
  ipv4 {source header segment} trailer h := by
    have hpacket : Ipv4.Plausible (header ++ segment ++ trailer) := by
      have hmin := h.min_le
      rw [List.append_assoc]
      refine ⟨?_, ?_⟩
      · rw [List.length_append]
        exact Nat.le_add_right_of_le hmin
      · rw [versionOf, List.getD_append _ _ _ _ (by omega)]
        exact h.version
    rw [ipv4_standard hpacket]
    exact Ipv4.toOption_parse h (List.append_assoc _ _ _)
  udp trailer h := by
    show (Segment.ofUdp _).toOption = _
    rw [Segment.ofUdp_eq_ok h (List.append_assoc _ _ _)]
    rfl

/-! ## Parts of frames -/

/-- A message behind VLAN tags is a part of what follows the Ethernet header. -/
theorem ofEtherType_yields (tags etherType : Nat) (s : Stretch) :
    Yields (Contents.Within s.octets) (ofEtherType tags etherType s) := by
  have hipv4 (s : Stretch) : Yields (Contents.Within s.octets) (Ipv4.parse s) := fun c hc =>
    (Ipv4.parse_yields s c hc).within
  have hnone (s : Stretch) (header : Option IpHeader) :
      Yields (Contents.Within s.octets) (.ok ⟨header, none⟩) := .of_ok (.of_none _ _)
  induction tags generalizing etherType s with
  | zero =>
    unfold ofEtherType
    refine .ite (.after fun _ => .ite (.of_error _) (hipv4 s)) ?_
    exact .ite (.after fun _ => hnone s _) (.ite (hnone s _) (hnone s _))
  | succ tags ih =>
    unfold ofEtherType
    refine .ite (.after fun _ => .ite (.of_error _) (hipv4 s)) ?_
    refine .ite (.after fun _ => hnone s _) (.ite (.after fun _ => ?_) (hnone s _))
    exact fun c hc => (ih _ _ c hc).trans (List.drop_suffix vlanTagLength s.octets).isInfix

theorem ofEthernet_yields (bs : Octets) : Yields (Contents.Within bs) (ofEthernet bs) :=
  .after fun _ c hc =>
    (ofEtherType_yields _ _ _ c hc).trans (List.drop_suffix ethernetHeaderLength bs).isInfix

theorem ofIp_yields (bs : Octets) : Yields (Contents.Within bs) (ofIp bs) := by
  refine .after fun _ => .ite (fun c hc => (Ipv4.parse_yields _ c hc).within) ?_
  exact .ite (.after fun _ => .of_ok (.of_none _ _)) (.of_error _)

theorem mapError_eq_ok {α ε ε' : Type} {x : Except ε α} {f : ε → ε'} {a : α}
    (h : x.mapError f = .ok a) : x = .ok a := by
  cases x with
  | ok b => exact congrArg Except.ok (Except.ok.inj h)
  | error e => exact nomatch h

theorem Slicer.inPlace_standard : Slicer.InPlace where
  ofEthernet h := ofEthernet_yields _ _ (mapError_eq_ok h)
  ofIp h := ofIp_yields _ _ (mapError_eq_ok h)

end Network

end FlowTelemetry

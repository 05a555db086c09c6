import FlowTelemetry.Proofs.Network.Stages
import Mathlib.Data.List.GetD

/-!
# Where a packet lies

The same IPv4 packet may be captured behind an Ethernet header or by itself, and
it should not matter which. A datagram inside it is the same whether the captured
octets or a length field put an end to it. But a fault tells these cases apart,
for it reports the offset of its layer and what decided how long it is. So
outcomes are compared up to that: they are `Alike` if the one is a fault whenever
the other is, and each stage turns two stretches with the same octets into such a
pair.

What comes before the stages is not the same. Behind an Ethernet header a packet
must have twenty octets and the version 4 before anything else is looked at, and
without one the version alone decides what the octets are. But octets that fail
the first test fail one of the stages in the second case (`exists_ofIp_error`),
and so the two ways part only in what they report as wrong. Packets of version 6
are left out: to an Ethernet header that announces version 4 they are broken, and
by themselves they are not.
-/

namespace FlowTelemetry

namespace Network

/-! ## Outcomes that are alike -/

/-- **Two outcomes are alike**: they are values that are related, or faults of any
kind. -/
inductive Alike {α β : Type} (R : α → β → Prop) : Except Fault α → Except Fault β → Prop
  | ok {a : α} {b : β} : R a b → Alike R (.ok a) (.ok b)
  | error (fault fault' : Fault) : Alike R (.error fault) (.error fault')

section Alike

variable {α β α' β' : Type} {R : α → β → Prop} {R' : α' → β' → Prop}

theorem Alike.bind {x : Except Fault α} {y : Except Fault β} {f : α → Except Fault α'}
    {g : β → Except Fault β'} (h : Alike R x y) (hfg : ∀ a b, R a b → Alike R' (f a) (g b)) :
    Alike R' (x >>= f) (y >>= g) := by
  cases h with
  | ok hab => exact hfg _ _ hab
  | error fault fault' => exact .error fault fault'

theorem Alike.ite {c : Prop} [Decidable c] {x x' : Except Fault α} {y y' : Except Fault β}
    (h : Alike R x y) (h' : Alike R x' y') :
    Alike R (if c then x else x') (if c then y else y') := by
  split
  · exact h
  · exact h'

/-- A check may be made on both sides or on neither. -/
theorem Alike.check {c : Prop} [Decidable c] {x y : Except Fault Unit}
    {f : Unit → Except Fault α} {g : Unit → Except Fault β} (h : Alike Eq x y)
    (hfg : Alike R (f ()) (g ())) :
    Alike R (if c then x >>= f else f ()) (if c then y >>= g else g ()) :=
  .ite (h.bind fun _ _ _ => hfg) hfg

/-- But for the faults they are the same. -/
theorem Alike.toOption_eq {x y : Except Fault α} (h : Alike Eq x y) : x.toOption = y.toOption := by
  cases h with
  | ok hab => rw [hab]
  | error fault fault' => rfl

end Alike

/-! ## The stages, at two places -/

/-- The same octets somewhere else, with something else to say where they end. -/
def Stretch.placed (s : Stretch) (offset : Nat) (bound : LengthSource) : Stretch :=
  { s with offset, bound }

/-- Nothing but their places tells two stretches with the same octets apart. -/
theorem Stretch.exists_placed {s s' : Stretch} (h : s'.octets = s.octets) :
    ∃ offset bound, s' = s.placed offset bound := by
  refine ⟨s'.offset, s'.bound, ?_⟩
  have hsize : s'.size = s.size := by rw [s'.size_eq, s.size_eq, h]
  unfold placed
  rw [Stretch.mk.injEq]
  exact ⟨rfl, h, hsize, rfl⟩

section Stages

variable (s : Stretch) (offset : Nat) (bound : LengthSource)

theorem Stretch.require_alike (k : Nat) (layer : Layer) :
    Alike Eq (s.require k layer) ((s.placed offset bound).require k layer) :=
  .ite (.ok rfl) (.error _ _)

theorem Stretch.skip_alike (k : Nat) (layer : Layer) :
    Alike (fun rest rest' => rest'.val.octets = rest.val.octets) (s.skip k layer)
      ((s.placed offset bound).skip k layer) := by
  unfold skip
  by_cases h : k ≤ s.size
  · rw [dif_pos h, dif_pos (show k ≤ (s.placed offset bound).size from h)]
    exact .ok rfl
  · rw [dif_neg h, dif_neg (show ¬ k ≤ (s.placed offset bound).size from h)]
    exact .error _ _

theorem skipAuthentication_alike :
    Alike (fun rest rest' => rest'.val.octets = rest.val.octets) (skipAuthentication s)
      (skipAuthentication (s.placed offset bound)) :=
  (s.require_alike _ _ _ _).bind fun _ _ _ => .ite (.error _ _) (s.skip_alike _ _ _ _)

namespace Segment

theorem ofUdp_alike : Alike Eq (ofUdp s) (ofUdp (s.placed offset bound)) :=
  (s.require_alike _ _ _ _).bind fun _ _ _ => (s.require_alike _ _ _ _).bind fun _ _ _ =>
    .ite (.error _ _) (.ok rfl)

theorem checkTcp_alike : Alike Eq (checkTcp s) (checkTcp (s.placed offset bound)) :=
  (s.require_alike _ _ _ _).bind fun _ _ _ => .ite (.error _ _) (s.require_alike _ _ _ _)

theorem checkIcmpv4_alike : Alike Eq (checkIcmpv4 s) (checkIcmpv4 (s.placed offset bound)) :=
  (s.require_alike _ _ _ _).bind fun _ _ _ =>
    .ite (.ite (.error _ _) (.ite (.error _ _) (.ok rfl))) (.ok rfl)

theorem parse_alike (protocol : Nat) :
    Alike Eq (parse protocol s) (parse protocol (s.placed offset bound)) := by
  refine .ite (ofUdp_alike s _ _) ?_
  exact .check (checkTcp_alike s _ _)
    (.check (checkIcmpv4_alike s _ _) (.check (s.require_alike _ _ _ _) (.ok rfl)))

end Segment

namespace Ipv4

theorem payload_alike :
    Alike (fun p p' => p'.octets = p.octets) (payload s) (payload (s.placed offset bound)) :=
  .ite (.error _ _) ((s.require_alike _ _ _ _).bind fun _ _ _ => .ite (.error _ _)
    ((s.require_alike _ _ _ _).bind fun _ _ _ => .ok rfl))

theorem carried_alike (protocol : Nat) :
    Alike (fun x x' => x'.1 = x.1 ∧ x'.2.octets = x.2.octets) (carried protocol s)
      (carried protocol (s.placed offset bound)) :=
  .ite ((skipAuthentication_alike s _ _).bind fun _ _ h => .ok ⟨rfl, h⟩) (.ok ⟨rfl, rfl⟩)

theorem contents_alike (protocol : Nat) (p : Stretch) (offset' : Nat) (bound' : LengthSource) :
    Alike Eq (contents s (protocol, p))
      (contents (s.placed offset bound) (protocol, p.placed offset' bound')) := by
  refine .ite (.ok rfl) ((Segment.parse_alike _ _ _ _).bind ?_)
  rintro segment _ rfl
  exact .ok rfl

/-- **Where a packet lies shows in its faults only.** -/
theorem parse_alike : Alike Eq (parse s) (parse (s.placed offset bound)) := by
  rw [parse_eq, parse_eq]
  refine (payload_alike s offset bound).bind fun p p' hp => ?_
  obtain ⟨_, _, rfl⟩ := Stretch.exists_placed hp
  refine (carried_alike p _ _ _).bind ?_
  rintro ⟨protocol, q⟩ ⟨protocol', q'⟩ ⟨hprotocol, hq : q'.octets = q.octets⟩
  obtain rfl : protocol' = protocol := hprotocol
  obtain ⟨_, _, rfl⟩ := Stretch.exists_placed hq
  exact contents_alike s _ _ _ _ _ _

end Ipv4

end Stages

/-! ## Behind a header and by itself -/

/-- Octets that an Ethernet header announces as an IPv4 packet are taken apart as
one. -/
theorem ofEthernet_eq {addresses : Octets} (haddresses : addresses.length = 12) (bs : Octets) :
    ofEthernet (addresses ++ (Octets.ofUInt16 0x0800 ++ bs)) =
      ofEtherType 2 etherIpv4 ((Stretch.whole bs).placed ethernetHeaderLength .slice) := by
  let s := Stretch.whole (addresses ++ (Octets.ofUInt16 0x0800 ++ bs))
  have hetherType : (s.u16 12).toNat = etherIpv4 := by
    unfold Stretch.u16 Stretch.octet
    rw [show s.octets = addresses ++ _ from rfl,
      List.getD_append_right _ _ _ _ (Nat.le_of_eq haddresses),
      List.getD_append_right _ _ _ _ (Nat.le_succ_of_le (Nat.le_of_eq haddresses)), haddresses]
    exact (congrArg UInt16.toNat (Octets.uint16_ofUInt16 0x0800)).trans (by decide)
  have hsize : s.octets.length = ethernetHeaderLength + bs.length := by
    show (addresses ++ (_ ++ _)).length = _
    rw [← List.append_assoc, List.length_append, List.length_append, haddresses]
    rfl
  have hafter : s.after ethernetHeaderLength =
      ((Stretch.whole bs).placed ethernetHeaderLength .slice) := by
    have hoctets :
        (addresses ++ (Octets.ofUInt16 0x0800 ++ bs)).drop ethernetHeaderLength = bs := by
      rw [← List.append_assoc]
      exact List.drop_left' (by rw [List.length_append, haddresses]; rfl)
    have hleft : s.size - ethernetHeaderLength = bs.length := by
      rw [s.size_eq, hsize, Nat.add_sub_cancel_left]
    rw [Stretch.after, Stretch.mk.injEq]
    exact ⟨Nat.zero_add _, hoctets, hleft, rfl⟩
  show (do s.require ethernetHeaderLength .ethernet; _) = _
  rw [Stretch.require_eq_ok (hsize ▸ Nat.le_add_right _ _), hetherType, hafter]
  rfl

/-- Octets that an Ethernet header announces as an IPv4 packet are refused if they
cannot be one. -/
theorem exists_ofEtherType_error (tags : Nat) {s : Stretch}
    (h : ¬ (20 ≤ s.octets.length ∧ Ipv4.version s = 4)) :
    ∃ fault, ofEtherType tags etherIpv4 s = .error fault := by
  unfold ofEtherType
  rw [if_pos rfl]
  by_cases hsize : Ipv4.minHeaderLength ≤ s.octets.length
  · rw [Stretch.require_eq_ok hsize]
    exact ⟨_, if_pos fun h4 => h ⟨hsize, h4⟩⟩
  · rw [Stretch.require, if_neg (s.size_eq ▸ hsize)]
    exact ⟨_, rfl⟩

/-- So they are without the header, unless they are taken for an IPv6 packet. -/
theorem exists_ofIp_error {bs : Octets} (h6 : Ipv4.version (.whole bs) ≠ 6)
    (h : ¬ (20 ≤ bs.length ∧ Ipv4.version (.whole bs) = 4)) :
    ∃ fault, ofIp bs = .error fault := by
  by_cases hsize : 1 ≤ bs.length
  · by_cases h4 : Ipv4.version (.whole bs) = 4
    · rw [ofIp_eq_parse hsize h4]
      exact Ipv4.exists_parse_error (Nat.lt_of_not_le fun hlong => h ⟨hlong, h4⟩)
    · unfold ofIp
      dsimp only
      rw [Stretch.require_eq_ok hsize]
      exact ⟨_, (if_neg h4).trans (if_neg h6)⟩
  · unfold ofIp Stretch.require
    dsimp only
    exact ⟨_, congrArg (· >>= _) (if_neg hsize)⟩

end Network

end FlowTelemetry

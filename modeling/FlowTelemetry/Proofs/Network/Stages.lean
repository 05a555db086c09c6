import FlowTelemetry.Network.Link
import FlowTelemetry.Proofs.Network.Rules

/-!
# The stages of taking a packet apart

An IPv4 packet is taken apart in three stages. Its header says where the
payload begins and where it ends (`Ipv4.payload`). In front of what the payload
carries there may be an authentication header (`Ipv4.carried`). And what it
carries is looked into unless the packet is a fragment (`Ipv4.contents`). Put
one after the other the stages are `Ipv4.parse` (`Ipv4.parse_eq`), so that what
is to be shown of packets can be shown of one stage at a time.

It is done here for one property, which says that nothing is made up: each
stage goes from a stretch to a smaller one inside, and in the end the message
is a run of consecutive octets of the packet (`Ipv4.parse_yields`). How many
octets lie before and after it plays no part.
-/

namespace FlowTelemetry

namespace Network

theorem Stretch.require_eq_ok {s : Stretch} {n : Nat} {layer : Layer} (h : n ≤ s.octets.length) :
    s.require n layer = .ok () :=
  if_pos (s.size_eq ▸ h)

/-- A packet with nothing in front of it is known by its version. -/
theorem ofIp_eq_parse {bs : Octets} (hsize : 1 ≤ bs.length)
    (hversion : Ipv4.version (.whole bs) = 4) : ofIp bs = Ipv4.parse (.whole bs) := by
  unfold ofIp
  dsimp only
  rw [Stretch.require_eq_ok hsize]
  exact if_pos hversion

/-- Behind an Ethernet header the shortest IPv4 header is asked for first. -/
theorem ofEtherType_eq_parse (tags : Nat) {s : Stretch}
    (hsize : Ipv4.minHeaderLength ≤ s.octets.length) (hversion : Ipv4.version s = 4) :
    ofEtherType tags etherIpv4 s = Ipv4.parse s := by
  unfold ofEtherType
  rw [if_pos rfl, Stretch.require_eq_ok hsize]
  exact if_neg fun hne => hne hversion

/-! ## The stages -/

namespace Ipv4

/-- The payload of a packet, if the lengths in its header are in order. -/
def payload (s : Stretch) : Except Fault Stretch := do
  let words := (s.octet 0).toNat % 16
  if words < 5 then throw (.ipv4HeaderLength words)
  let headerLength := 4 * words
  s.require headerLength .ipv4Header
  let total := (s.u16 2).toNat
  if total < headerLength then
    throw (.length headerLength total .ipv4TotalLength .ipv4Packet s.offset)
  s.require total .ipv4Packet
  return (s.first total .ipv4TotalLength).after headerLength

/-- The number of what a payload carries, and where that begins: at once, or
behind an authentication header. -/
def carried (protocol : Nat) (payload : Stretch) : Except Fault (Nat × Stretch) :=
  if protocol = authentication then do
    let rest ← skipAuthentication payload
    return ((payload.octet 0).toNat, rest.val)
  else return (protocol, payload)

/-- What a packet holds that carries a segment of some number. -/
def contents (s : Stretch) (x : Nat × Stretch) : Except Fault Contents := do
  if isFragment s then return ⟨some (.ipv4 (source s)), none⟩
  let segment ← Segment.parse x.1 x.2
  return ⟨some (.ipv4 (source s)), some segment⟩

/-- **A packet is taken apart in three stages.** -/
theorem parse_eq (s : Stretch) :
    parse s = payload s >>= fun p => carried (s.octet 9).toNat p >>= contents s := by
  unfold parse payload
  dsimp only
  split
  · rfl
  · cases s.require (4 * ((s.octet 0).toNat % 16)) .ipv4Header with
    | error fault => rfl
    | ok _ =>
      show (if _ then _ else _) = (if _ then _ else _) >>= _
      split
      · rfl
      · cases s.require (s.u16 2).toNat .ipv4Packet with
        | error fault => rfl
        | ok _ =>
          show (if _ then _ else _) = carried _ _ >>= _
          unfold carried
          split
          · cases skipAuthentication _ <;> rfl
          · rfl

/-- A packet that has fewer octets than any header is refused. -/
theorem exists_parse_error {s : Stretch} (h : s.size < minHeaderLength) :
    ∃ fault, parse s = .error fault := by
  unfold minHeaderLength at h
  rw [parse_eq]
  unfold payload
  dsimp only
  split
  · exact ⟨_, rfl⟩
  · next hwords =>
    have hshort : ¬ 4 * ((s.octet 0).toNat % 16) ≤ s.size := by omega
    rw [Stretch.require, if_neg hshort]
    exact ⟨_, rfl⟩

end Ipv4

/-! ## What is yielded -/

/-- **An outcome yields only values with a property**, if it is not a fault. -/
def Yields {α : Type} (P : α → Prop) (x : Except Fault α) : Prop := ∀ a, x = .ok a → P a

section Yields

variable {α β : Type} {P : α → Prop} {Q : β → Prop}

theorem Yields.of_ok {a : α} (h : P a) : Yields P (.ok a) := by
  rintro _ ⟨⟩
  exact h

theorem Yields.of_error (fault : Fault) : Yields P (.error fault) := nofun

theorem Yields.bind {x : Except Fault α} {f : α → Except Fault β} (h : Yields P x)
    (hf : ∀ a, P a → Yields Q (f a)) : Yields Q (x >>= f) := by
  cases x with
  | ok a => exact hf a (h a rfl)
  | error fault => exact .of_error fault

/-- Whatever comes before, the last outcome is the one that counts. -/
theorem Yields.after {x : Except Fault α} {f : α → Except Fault β} (hf : ∀ a, Yields Q (f a)) :
    Yields Q (x >>= f) :=
  Yields.bind (fun _ _ => trivial) fun a (_ : True) => hf a

theorem Yields.ite {c : Prop} [Decidable c] {x y : Except Fault α} (h : Yields P x)
    (h' : Yields P y) : Yields P (if c then x else y) := by
  split
  · exact h
  · exact h'

/-- A check that is made only sometimes is of no account. -/
theorem Yields.check {c : Prop} [Decidable c] {x : Except Fault Unit}
    {f : Unit → Except Fault α} (hf : Yields P (f ())) :
    Yields P (if c then x >>= f else f ()) :=
  .ite (.after fun _ => hf) hf

end Yields

/-- The message that a segment holds is a part of the given octets. -/
def Segment.Within (bs : Octets) : Segment → Prop
  | datagram _ payload => payload <:+: bs
  | other => True

/-- The octets are those of an IPv4 packet, and the message that it holds is a
part of them. -/
structure Contents.WithinIpv4 (bs : Octets) (contents : Contents) : Prop where
  header_eq : ∃ source, contents.header = some (.ipv4 source)
  within : contents.Within bs

/-- Without a segment there is no message. -/
theorem Contents.Within.of_none (bs : Octets) (header : Option IpHeader) :
    Contents.Within bs ⟨header, none⟩ :=
  nofun

theorem Contents.Within.of_segment {bs : Octets} {segment : Segment} (h : segment.Within bs)
    (header : Option IpHeader) : Contents.Within bs ⟨header, some segment⟩ := by
  rintro port payload ⟨⟩
  exact h

/-- A part of some octets is a part of all octets that they are a part of. -/
theorem Contents.Within.trans {bs bs' : Octets} {contents : Contents} (h : contents.Within bs)
    (hbs : bs <:+: bs') : contents.Within bs' :=
  fun port payload hsegment => (h port payload hsegment).trans hbs

theorem Segment.Within.trans {bs bs' : Octets} {segment : Segment} (h : segment.Within bs)
    (hbs : bs <:+: bs') : segment.Within bs' := by
  cases segment with
  | datagram port payload => exact List.IsInfix.trans h hbs
  | other => trivial

theorem Stretch.skip_yields (s : Stretch) (n : Nat) (layer : Layer) :
    Yields (fun rest => rest.val.octets <:+: s.octets) (s.skip n layer) := by
  unfold skip
  split
  · exact .of_ok (List.drop_suffix n s.octets).isInfix
  · exact .of_error _

theorem skipAuthentication_yields (s : Stretch) :
    Yields (fun rest => rest.val.octets <:+: s.octets) (skipAuthentication s) :=
  .after fun _ => .ite (.of_error _) (s.skip_yields _ _)

theorem Segment.ofUdp_yields (s : Stretch) : Yields (Within s.octets) (ofUdp s) := by
  refine .after fun _ => .after fun _ => .ite (.of_error _) (.of_ok ?_)
  refine (List.drop_suffix _ _).isInfix.trans ?_
  split
  · exact List.infix_rfl
  · exact (List.take_prefix _ _).isInfix

/-- Only datagrams hold a message. -/
theorem Segment.parse_yields (protocol : Nat) (s : Stretch) :
    Yields (Within s.octets) (parse protocol s) := by
  refine .ite (ofUdp_yields s) ?_
  exact .check (.check (.check (.of_ok trivial)))

namespace Ipv4

variable (s : Stretch)

theorem payload_yields : Yields (fun p => p.octets <:+: s.octets) (payload s) := by
  refine .ite (.of_error _) (.after fun _ => .ite (.of_error _) (.after fun _ => .of_ok ?_))
  exact (List.drop_suffix _ _).isInfix.trans (List.take_prefix _ _).isInfix

theorem carried_yields (protocol : Nat) :
    Yields (fun x => x.2.octets <:+: s.octets) (carried protocol s) :=
  .ite ((skipAuthentication_yields s).bind fun _ h => .of_ok h) (.of_ok List.infix_rfl)

theorem contents_yields {x : Nat × Stretch} (hx : x.2.octets <:+: s.octets) :
    Yields (Contents.WithinIpv4 s.octets) (contents s x) := by
  refine .ite (.of_ok ⟨⟨_, rfl⟩, .of_none _ _⟩) ?_
  refine (Segment.parse_yields _ _).bind fun segment h => ?_
  exact .of_ok ⟨⟨_, rfl⟩, .of_segment (h.trans hx) _⟩

/-- **The message in a packet is a part of the packet.** -/
theorem parse_yields : Yields (Contents.WithinIpv4 s.octets) (parse s) := by
  rw [parse_eq]
  exact (payload_yields s).bind fun p hp => (carried_yields p _).bind fun x hx =>
    contents_yields s (hx.trans hp)

end Ipv4

end Network

end FlowTelemetry

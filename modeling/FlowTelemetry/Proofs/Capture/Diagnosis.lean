import FlowTelemetry.Proofs.Capture.Headers

/-!
# Diagnosing dropped frames

Whoever wants to know why a frame was dropped, or where a message was taken
from, should be able to find it in the frame. So an error keeps all the octets of
the frame, however deep inside it was noticed that there is no message. And a
message is found where it was: it is a run of consecutive octets of the frame
(`unwrapOctets_within`).

On which host a frame was captured should not show in what is said of it. The
four octets of a loopback header stand in the byte order of that host, and a
family is read from them in both orders. Since the smaller number counts, one may
turn the octets around (`unwrapLoopback_reverse`). A known family fills one octet
only, so in the other order it is a greater number, and none is missed because of
what the other order makes of it (`family_known_iff`).
-/

namespace FlowTelemetry

namespace Frame

/-! ## Messages as parts of frames -/

/-- Only contents with a datagram have a sender and a message. -/
theorem ofContents_within {bs : Octets} {contents : Network.Contents}
    (hcontents : contents.Within bs) {source : Endpoint} {payload : Octets}
    (h : ofContents contents = .ok (source, payload)) : payload <:+: bs := by
  unfold ofContents at h
  split at h
  · split at h
    · next hsegment =>
      cases h
      exact hcontents _ _ hsegment
    · cases h
  · cases h

theorem ofSliced_within {bs : Octets} {x : Except Network.Refusal Network.Contents}
    (hx : ∀ contents, x = .ok contents → contents.Within bs) {source : Endpoint}
    {payload : Octets} (h : ofSliced x = .ok (source, payload)) : payload <:+: bs := by
  cases x with
  | ok contents => exact ofContents_within (hx contents rfl) h
  | error refusal => exact nomatch h

section Slices

variable [Network.Slicer] (hslicer : Network.Slicer.InPlace)
include hslicer

theorem unwrapLoopback_within {bs : Octets} {source : Endpoint} {payload : Octets}
    (h : unwrapLoopback bs = .ok (source, payload)) : payload <:+: bs := by
  unfold unwrapLoopback at h
  split at h
  · next a b c d rest =>
    have hrest : rest <:+: a :: b :: c :: d :: rest :=
      (List.suffix_append [a, b, c, d] rest).isInfix
    dsimp only at h
    split at h
    · cases h
      exact hrest
    · split at h
      · exact (ofSliced_within (fun _ => hslicer.ofIp) h).trans hrest
      · cases h
  · cases h

/-- **A message is a part of its frame**, whatever is around it. -/
theorem unwrapOctets_within {link : LinkType} {bs : Octets} {source : Endpoint}
    {payload : Octets} (h : unwrapOctets link bs = .ok (source, payload)) : payload <:+: bs := by
  cases link with
  | loopback => exact unwrapLoopback_within hslicer h
  | ethernet => exact ofSliced_within (fun _ => hslicer.ofEthernet) h

/-- Every outcome of unwrapping can be traced to the frame. -/
theorem unwrap_kept (f : Frame) :
    match f.unwrap with
    | .ok datagram => datagram.payload <:+: f.octets ∧ datagram.timestamp = f.timestamp
    | .error e => e.raw = f.octets := by
  unfold unwrap
  cases h : unwrapOctets f.link f.octets with
  | ok x => exact ⟨unwrapOctets_within hslicer h, rfl⟩
  | error reason => rfl

end Slices

/-! ## Both byte orders -/

section Family

variable (a b c d : UInt8)

theorem toNat_family :
    (family a b c d).toNat =
      min (Octets.uint32 a b c d).toNat (Octets.uint32 d c b a).toNat := by
  show (if Octets.uint32 a b c d ≤ Octets.uint32 d c b a then _ else _ : UInt32).toNat = _
  split
  · next h => exact (Nat.min_eq_left (UInt32.le_iff_toNat_le.mp h)).symm
  · next h =>
    rw [UInt32.le_iff_toNat_le] at h
    exact (Nat.min_eq_right (by omega)).symm

theorem family_reverse : family d c b a = family a b c d := by
  rw [← UInt32.toNat_inj, toNat_family, toNat_family, Nat.min_comm]

/-- **A known family is found in either byte order.** -/
theorem family_known_iff :
    family a b c d = unspecifiedFamily ∨ family a b c d = ipv4Family ↔
      (Octets.uint32 a b c d = 0 ∨ Octets.uint32 a b c d = 2) ∨
        Octets.uint32 d c b a = 0 ∨ Octets.uint32 d c b a = 2 := by
  have ha := a.toNat_lt
  have hb := b.toNat_lt
  have hc := c.toNat_lt
  have hd := d.toNat_lt
  simp only [← UInt32.toNat_inj, toNat_family, Octets.uint32, UInt32.toNat_ofNat',
    unspecifiedFamily, ipv4Family, UInt32.toNat_zero, UInt32.reduceToNat]
  omega

variable [Network.Slicer]

theorem unwrapLoopback_reverse (rest : Octets) :
    unwrapLoopback ([d, c, b, a] ++ rest) = unwrapLoopback ([a, b, c, d] ++ rest) := by
  show (if family d c b a = _ then _ else _) = _
  rw [family_reverse]
  rfl

omit [Network.Slicer] in
theorem ofSliced_ne_unknownFamily (x : Except Network.Refusal Network.Contents)
    (number : UInt32) : ofSliced x ≠ .error (.unknownFamily number) := by
  cases x with
  | ok contents =>
    show ofContents contents ≠ _
    unfold ofContents
    split
    · split <;> nofun
    · nofun
  | error refusal => nofun

/-- Only the family of a frame is refused for being unknown. -/
theorem unwrapLoopback_ne_unknownFamily {a b c d : UInt8} (rest : Octets)
    (h : family a b c d = unspecifiedFamily ∨ family a b c d = ipv4Family) (number : UInt32) :
    unwrapLoopback ([a, b, c, d] ++ rest) ≠ .error (.unknownFamily number) := by
  show (if _ then _ else if _ then _ else _) ≠ _
  split
  · nofun
  · next hne =>
    rw [if_pos (h.resolve_left hne)]
    exact ofSliced_ne_unknownFamily _ _

theorem unwrapLoopback_of_unknown {a b c d : UInt8} (rest : Octets)
    (h : ¬ (family a b c d = unspecifiedFamily ∨ family a b c d = ipv4Family)) :
    unwrapLoopback ([a, b, c, d] ++ rest) = .error (.unknownFamily (family a b c d)) :=
  (if_neg fun heq => h (.inl heq)).trans (if_neg fun heq => h (.inr heq))

end Family

variable [Network.Slicer]

/-- Apart from what it keeps, the outcome is that of taking the frame apart. -/
theorem mapError_unwrap (f : Frame) :
    f.unwrap.mapError (·.reason) =
      (unwrapOctets f.link f.octets).map fun x => ⟨f.timestamp, x.1, x.2⟩ := by
  unfold unwrap
  cases unwrapOctets f.link f.octets <;> rfl

theorem mapError_unwrap_eq_error_iff {f : Frame} {reason : FrameError.Reason} :
    f.unwrap.mapError (·.reason) = .error reason ↔
      unwrapOctets f.link f.octets = .error reason := by
  rw [mapError_unwrap]
  cases unwrapOctets f.link f.octets with
  | ok x => exact ⟨nofun, nofun⟩
  | error _ =>
    exact ⟨fun h => congrArg _ (Except.error.inj h), fun h => congrArg _ (Except.error.inj h)⟩

end Frame

end FlowTelemetry

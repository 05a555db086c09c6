import FlowTelemetry.Proofs.Capture.Framing
import FlowTelemetry.Proofs.Collector.Walk
import FlowTelemetry.Proofs.Health.Tracking
import FlowTelemetry.Proofs.Wire.RoundTrip

/-!
# Messages are delivered

From a message that is sent to the packet that a stream hands out there are
four layers: the message is written, wrapped up in a frame, unwrapped again
and read. Each layer undoes another whatever stands around it, so no more than
their laws is needed to see that a message arrives.

On the way there are other frames, and these may hold anything at all that is
not a message. `Captured` relates the packets that were sent to the frames that
were captured: every message was wrapped up in one of the frames, in order,
and each of the other frames holds no packet.

What arrives is the normal form of what was sent. Keeping track of senders is
not affected by that: names are of no interest to it, and the sampling rate is
the same if it was given where there is a place for it.
-/

namespace FlowTelemetry

/-- A packet as it arrives: with its message as it reads back. -/
def Packet.normalised (p : Packet) : Packet := { p with message := p.message.normalised }

/-- A frame that cannot be unwrapped, or with something in it that cannot be
read. -/
def Frame.HoldsNoPacket [Network.Slicer] (f : Frame) : Prop :=
  (∃ e, f.unwrap = .error e) ∨
    ∃ d e, f.unwrap = .ok d ∧ Message.decode .full d.payload = .error e

/-- **Packets that were captured**: frames with the message of each packet in
one of them, in order, and no packet in any other. -/
inductive Captured [Network.Slicer] : List Packet → List Frame → Prop where
  | nil : Captured [] []
  /-- A frame with the message of the next packet. -/
  | message {p : Packet} {ps : List Packet} {frames : List Frame} {payload : Octets}
      (made : p.message.Made) (encoded : p.message.encode = .ok payload)
      (w : Frame.Wrapping) (admits : w.Admits p.source payload) :
      Captured ps frames → Captured (p :: ps) (w.frame p.timestamp p.source payload :: frames)
  /-- Some other frame. -/
  | other {ps : List Packet} {frames : List Frame} {f : Frame} (none : f.HoldsNoPacket) :
      Captured ps frames → Captured ps (f :: frames)

/-! ## Single frames -/

namespace Event

variable {ε : Type} [Network.Slicer]

/-- **A frame with a message in it yields the packet that was sent.** -/
theorem item?_frame_of_encode {rules : Network.Rules} (hslicer : Network.Slicer.GoesBy rules)
    (hlengths : rules.ByLengths) {p : Packet} (made : p.message.Made) {payload : Octets}
    (encoded : p.message.encode = .ok payload) {w : Frame.Wrapping}
    (admits : w.Admits p.source payload) :
    (frame (w.frame p.timestamp p.source payload) : Event ε).item? .full =
      some (.ok p.normalised) := by
  have hdecode : Message.decode .full payload = .ok p.message.normalised :=
    Message.decode_eq_ok_iff_form.mpr
      ⟨payload, [], (List.append_nil _).symm, made.form_of_encode encoded⟩
  simp only [item?, Frame.unwrap_frame hslicer hlengths admits, Packet.ofDatagram, hdecode]
  rfl

/-- Other frames yield nothing. -/
theorem item?_frame_of_holdsNoPacket {f : Frame} (h : f.HoldsNoPacket) :
    (frame f : Event ε).item? .full = none := by
  rcases h with ⟨e, hunwrap⟩ | ⟨d, e, hunwrap, hdecode⟩
  · simp only [item?, hunwrap]
  · simp only [item?, hunwrap, Packet.ofDatagram, hdecode]
    rfl

end Event

/-! ## Streams -/

/-- **Frames yield the packets that were sent**, each once and in order. -/
theorem Captured.items {ε : Type} [Network.Slicer] {rules : Network.Rules}
    (hslicer : Network.Slicer.GoesBy rules) (hlengths : rules.ByLengths) {ps : List Packet}
    {frames : List Frame} (h : Captured ps frames) :
    Walk.items .full (frames.map (Event.frame : Frame → Event ε)) =
      ps.map fun p => .ok p.normalised := by
  unfold Walk.items
  rw [Walk.reached_frames]
  induction h with
  | nil => rfl
  | message made encoded w admits _ ih =>
    rw [List.map_cons, List.filterMap_cons,
      Event.item?_frame_of_encode hslicer hlengths made encoded admits]
    exact congrArg (_ :: ·) ih
  | other none _ ih =>
    rw [List.map_cons, List.filterMap_cons, Event.item?_frame_of_holdsNoPacket none]
    exact ih

/-! ## Trackers -/

/-- A snapshot with a sampling rate where there is a place for it, and only
there, is in normal form. -/
theorem Snapshot.normalised_eq_self {v : Version} {s : Snapshot}
    (h : s.sampleRate.isSome ↔ v = .v2) : s.normalised v = s := by
  obtain ⟨captured, received, dropped, interfaceDropped, rate⟩ := s
  cases v with
  | v2 =>
    obtain ⟨n, rfl⟩ := Option.isSome_iff_exists.mp (h.mpr rfl)
    rfl
  | v0 | v1 =>
    have hnone : rate = none := by simpa using h
    subst hnone
    rfl

/-- The sampling rate of a packet is given if the version has a place for it,
and only then. -/
def Packet.HasRateInPlace (p : Packet) : Prop :=
  ∀ s ∈ p.snapshot?, s.sampleRate.isSome ↔ p.message.header.version = .v2

/-- What a sender has sent is not known by its names. -/
theorem SourceState.update_normalised {p : Packet} (h : p.HasRateInPlace) (state : SourceState) :
    state.update p.normalised = state.update p := by
  obtain ⟨timestamp, source, header, body⟩ := p
  cases body with
  | stats s =>
    have hs : s.normalised header.version = s := Snapshot.normalised_eq_self (h s rfl)
    show state.update ⟨timestamp, source, header, .stats (s.normalised header.version)⟩ = _
    rw [hs]
  | records rs => rfl

/-- **A tracker learns the same from packets as they were sent and as they
arrive.** -/
theorem Tracker.run_normalised {ps : List Packet} (h : ∀ p ∈ ps, p.HasRateInPlace) (t : Tracker) :
    t.run (ps.map Packet.normalised) = t.run ps := by
  have halike : ∀ p ∈ ps, p.Alike p.normalised :=
    fun p hp => ⟨rfl, rfl, SourceState.update_normalised (h p hp)⟩
  exact run_map_of_alike halike t

/-! ## From end to end -/

namespace PacketStream

/-- **Every message is delivered**, if the slicer goes by the lengths in headers. A
stream over frames in which packets were captured hands out these packets as they
read back, each once and in order, and then nothing any more. Feeding what it
hands out to a tracker is feeding these packets to it, and is feeding it what was
sent if the sampling rates are in place. -/
theorem ofFeed_captured [Network.Slicer] {rules : Network.Rules}
    (hslicer : Network.Slicer.GoesBy rules) (hlengths : rules.ByLengths)
    {settings : Settings} (hdetail : settings.detail = .full) {ps : List Packet}
    {frames : List Frame} (h : Captured ps frames) :
    let s := ofFeed settings (.ofFrames frames)
    (∀ n, (s.after n).next.item = (ps[n]?).map fun p => .ok p.normalised) ∧
      (∀ n, ps.length ≤ n → ∀ t : Tracker,
        t.run ((s.yielded n).filterMap Except.toOption) = t.run (ps.map Packet.normalised)) ∧
      ((∀ p ∈ ps, p.HasRateInPlace) →
        ∀ t : Tracker, t.run (ps.map Packet.normalised) = t.run ps) := by
  intro s
  have hahead : s.ahead = ps.map fun p => .ok p.normalised := by
    show Walk.items settings.detail _ = _
    rw [hdetail]
    exact h.items hslicer hlengths
  refine ⟨fun n => ?_, fun n hn t => congrArg t.run ?_, Tracker.run_normalised⟩
  · rw [item_after, hahead, List.getElem?_map]
  · rw [yielded_eq_take, hahead, List.take_of_length_le (by rwa [List.length_map]),
      List.filterMap_map]
    exact congrFun List.filterMap_eq_map ps

end PacketStream

namespace Captured

/-- Someone who sends messages. -/
def sender : Endpoint := ⟨⟨192, 0, 2, 7⟩, 40000⟩

/-- A message with records, two with counters but no sampling rates, and one
of which it is not known who sent it. -/
def sent : List Packet :=
  [⟨⟨0, 0⟩, sender, ⟨⟨.v1, 1, .none, 7⟩, .records [⟨⟨10, 0, 0, 1⟩, ["a."], [⟨192, 0, 2, 1⟩]⟩]⟩⟩,
    ⟨⟨1, 0⟩, sender, .ofSnapshot .v2 8 ⟨1, 2, 3, 4, none⟩⟩,
    ⟨⟨2, 0⟩, sender, .ofSnapshot .v1 9 ⟨5, 6, 7, 8, none⟩⟩,
    ⟨⟨3, 0⟩, .unspecified, .ofSnapshot .v0 1 ⟨1, 1, 1, 1, none⟩⟩]

/-- Headers with the given options. -/
def envelope (options : Octets) (wholeWords : options.length % 4 = 0)
    (fewOptions : options.length ≤ 40) : Network.Envelope :=
  { service := 0, identification := 1, fragmentation := 0x4000, timeToLive := 64
    packetChecksum := 0, destination := ⟨⟨192, 0, 2, 1⟩, 5300⟩, options
    datagramChecksum := 0, unfragmented := rfl, wholeWords, fewOptions }

/-- An Ethernet header that was cut off; a padded Ethernet frame whose packet
has options; a loopback frame with a message of unknown version; loopback
frames of either byte order; and one without a packet. -/
def frames : List Frame :=
  [⟨.ethernet, ⟨0, 0⟩, [0, 0]⟩,
    (Frame.Wrapping.ethernet [1, 1, 1, 1, 1, 1, 2, 2, 2, 2, 2, 2] rfl
      (envelope [1, 1, 1, 0] rfl (by decide)) [0, 0]).frame ⟨0, 0⟩ sender
      [1, 1, 0, 0, 0, 0, 0, 7, 10, 0, 0, 1, 1, 1, 0, 4, 1, 97, 0, 0, 192, 0, 2, 1],
    ⟨.loopback, ⟨0, 0⟩, [0, 0, 0, 0, 9, 1, 0, 0, 0, 0, 0, 0]⟩,
    (Frame.Wrapping.loopback false (envelope [] rfl (by decide)) []).frame ⟨1, 0⟩ sender
      [2, 1, 0, 1, 0, 0, 0, 8, 0, 0, 0, 1, 0, 0, 0, 2, 0, 0, 0, 3, 0, 0, 0, 4, 0, 0, 0, 0],
    (Frame.Wrapping.loopback true (envelope [] rfl (by decide)) []).frame ⟨2, 0⟩ sender
      [1, 1, 0, 1, 0, 0, 0, 9, 0, 0, 0, 5, 0, 0, 0, 6, 0, 0, 0, 7, 0, 0, 0, 8],
    Frame.Wrapping.bare.frame ⟨3, 0⟩ .unspecified
      [0, 1, 0, 1, 0, 0, 0, 1, 0, 0, 0, 1, 0, 0, 0, 1, 0, 0, 0, 1, 0, 0, 0, 1]]

theorem captured_sent : Captured sent frames := by
  have made : ∀ m : Message, Message.ofRecords .v1 7 m.body.recordList = .ok m → m.Made :=
    fun _ => .ofRecords
  refine .other (.inl ⟨_, rfl⟩) ?_
  refine .message (made _ rfl) (by cbv) _ (by decide) ?_
  refine .other (.inr ⟨_, _, rfl, rfl⟩) ?_
  refine .message (.ofSnapshot ..) (by cbv) _ (by decide) ?_
  refine .message (.ofSnapshot ..) (by cbv) _ (by decide) ?_
  exact .message (.ofSnapshot ..) (by cbv) _ rfl .nil

end Captured

/-- What was sent arrives, without the dot and with a sampling rate, and then
nothing. -/
theorem PacketStream.ofFeed_captured_sent :
    Network.Slicer.GoesBy Network.Rules.standard ∧ Network.Rules.standard.ByLengths ∧
      Settings.initial.detail = .full ∧ Captured Captured.sent Captured.frames ∧
      let s := ofFeed Settings.initial (.ofFrames Captured.frames)
      (s.after 0).next.item = some (.ok ⟨⟨0, 0⟩, Captured.sender,
        ⟨⟨.v1, 1, .none, 7⟩, .records [⟨⟨10, 0, 0, 1⟩, ["a"], [⟨192, 0, 2, 1⟩]⟩]⟩⟩) ∧
      (s.after 1).next.item = some (.ok ⟨⟨1, 0⟩, Captured.sender,
        .ofSnapshot .v2 8 ⟨1, 2, 3, 4, some 0⟩⟩) ∧
      (s.after 4).next.item = none ∧
      (Tracker.empty.run ((s.yielded 4).filterMap Except.toOption)).size = 2 := by
  have hdetail : Settings.initial.detail = .full := rfl
  obtain ⟨hitem, htracked, -⟩ := ofFeed_captured Network.Slicer.goesBy_standard
    Network.Rules.byLengths_standard hdetail Captured.captured_sent
  refine ⟨Network.Slicer.goesBy_standard, Network.Rules.byLengths_standard, hdetail,
    Captured.captured_sent, (hitem 0).trans ?_, (hitem 1).trans ?_, (hitem 4).trans rfl, ?_⟩
  · refine congrArg (fun p : Packet => some (Except.ok p)) ?_
    decide
  · rfl
  · rw [htracked 4 (by decide)]
    decide

end FlowTelemetry

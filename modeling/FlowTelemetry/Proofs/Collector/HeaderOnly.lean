import FlowTelemetry.Proofs.Collector.Flattening
import FlowTelemetry.Proofs.Health.Tracking
import FlowTelemetry.Proofs.Wire.HeaderOnly

/-!
# Keeping track without reading records

Those who only want to know how the senders are doing can leave the records
unread, which is a lot cheaper. They should learn the same about every sender
as if everything had been read.

There is one thing that they cannot learn, namely that a record is at fault. A
stream that reads everything drops such a message, and a stream that does not
read records takes it for a good one. So the two are compared on different
frames: the second one is given the frames of the first without those that the
first drops for the sake of a record. Frame by frame the packets are then the
same but for their records, and the state of a sender does not depend on these:
how many there are is taken from the header.
-/

namespace FlowTelemetry

/-! ## Packets without their records -/

/-- What is left of a packet if no records are read. -/
def Packet.withoutRecords (p : Packet) : Packet := { p with message := p.message.withoutRecords }

/-- **No state depends on records.** -/
theorem Packet.alike_withoutRecords (p : Packet) : p.Alike p.withoutRecords where
  source := rfl
  timestamp := rfl
  update := by
    obtain ⟨timestamp, source, header, body⟩ := p
    cases body <;> exact fun state => rfl

/-- Trackers learn the same without the records. -/
theorem Tracker.run_withoutRecords (t : Tracker) (ps : List Packet) :
    t.run (ps.map Packet.withoutRecords) = t.run ps :=
  run_map_of_alike (fun p _ => p.alike_withoutRecords) t

/-! ## Single frames -/

variable {ε : Type} [Network.Slicer]

namespace Frame

/-- The packet in a frame, if it has one. -/
def packet? (detail : Detail) (f : Frame) : Option Packet := (Packet.ofFrame detail f).toOption

/-- Whether a frame is dropped for the sake of a record when everything is
read. -/
def hasRecordAtFault (f : Frame) : Bool :=
  match Packet.ofFrame .full f with
  | .error (.datagramDropped _ e) => e.concernsRecord
  | _ => false

/-- The packet in a frame is the message in its datagram, if there are both. -/
theorem ofFrame_eq_match (detail : Detail) (f : Frame) :
    Packet.ofFrame detail f =
      match f.unwrap with
      | .error e => .error (.frameDropped f e)
      | .ok d =>
        match Message.decode detail d.payload with
        | .error e => .error (.datagramDropped d e)
        | .ok m => .ok ⟨d.timestamp, d.source, m⟩ := by
  unfold Packet.ofFrame Packet.ofDatagram
  cases f.unwrap with
  | error e => rfl
  | ok d =>
    dsimp only
    cases Message.decode detail d.payload <;> rfl

/-- A frame with a record at fault holds no packet for those who read it. -/
theorem packet?_full_of_atFault {f : Frame} (h : f.hasRecordAtFault = true) :
    f.packet? .full = none := by
  unfold hasRecordAtFault at h
  unfold packet?
  cases hframe : Packet.ofFrame .full f with
  | error entry => rfl
  | ok packet =>
    rw [hframe] at h
    exact absurd h Bool.false_ne_true

/-- **Any other frame holds the same packet**, but for its records. -/
theorem packet?_headerOnly {f : Frame} (h : f.hasRecordAtFault = false) :
    f.packet? .headerOnly = (f.packet? .full).map Packet.withoutRecords := by
  unfold hasRecordAtFault at h
  unfold packet?
  rw [ofFrame_eq_match] at h ⊢
  rw [ofFrame_eq_match]
  cases hunwrap : f.unwrap with
  | error e => rfl
  | ok d =>
    rw [hunwrap] at h
    dsimp only at h ⊢
    have hcompared := Message.decode_compared d.payload
    generalize Message.decode .full d.payload = full at h hcompared ⊢
    generalize Message.decode .headerOnly d.payload = light at hcompared ⊢
    cases hcompared with
    | refused e => rfl
    | read m => rfl
    | atFault hrecord header => exact absurd (h.symm.trans hrecord) Bool.false_ne_true

/-- So do several frames, if those with a record at fault are taken away. -/
theorem filterMap_packet?_headerOnly (frames : List Frame) :
    (frames.filter fun f => !f.hasRecordAtFault).filterMap (packet? .headerOnly) =
      (frames.filterMap (packet? .full)).map Packet.withoutRecords := by
  induction frames with
  | nil => rfl
  | cons f frames ih =>
    rw [List.filter_cons, List.filterMap_cons (f := packet? .full)]
    cases h : f.hasRecordAtFault with
    | true =>
      rw [packet?_full_of_atFault h]
      exact ih
    | false =>
      show (f :: frames.filter _).filterMap _ = _
      rw [List.filterMap_cons, packet?_headerOnly h, ih]
      cases f.packet? .full <;> rfl

end Frame

/-! ## Streams -/

namespace PacketStream

/-- The packets among the items of some turns. -/
def collected (s : PacketStream ε) (n : Nat) : List Packet :=
  (s.yielded n).filterMap Except.toOption

/-- A stream over frames that has come to its end has collected the packets in
them. -/
theorem collected_ofFrames {settings : Settings} {frames : List Frame} {n : Nat}
    (h : ((ofFeed settings (.ofFrames frames)).after n).next.item = none) :
    (ofFeed settings (.ofFrames frames)).collected n =
      frames.filterMap (Frame.packet? settings.detail) := by
  have hahead : (ofFeed settings (.ofFrames frames)).ahead =
      (frames.map (Event.frame : Frame → Event Empty)).filterMap (Event.item? settings.detail) :=
    congrArg (List.filterMap _) (Walk.reached_frames frames)
  unfold collected
  rw [yielded_of_item_eq_none _ h, hahead, List.filterMap_filterMap, List.filterMap_map]
  refine List.filterMap_congr fun f _ => ?_
  show ((Event.frame f : Event Empty).item? settings.detail).bind Except.toOption = _
  rw [Event.item?_frame, Frame.packet?]
  cases Packet.ofFrame settings.detail f <;> rfl

/-- **Those who do not read records learn the same.** The two ways of reading
come to the same verdict on all octets, and to the same header and counters,
except that records at fault are found by one of them only. Over any frames, a
tracker that is fed by a stream that reads everything ends up like one that is
fed by a stream that reads no records and is not given the frames that the
first one drops for the sake of a record. If there are no such frames, both
streams are given the same. -/
theorem run_collected_headerOnly (settings : Settings) (frames : List Frame) :
    let sound := frames.filter fun f => !f.hasRecordAtFault
    let full := ofFeed (settings.withDetail .full) (.ofFrames frames)
    let light := ofFeed (settings.withDetail .headerOnly) (.ofFrames sound)
    (∀ p,
      (∀ e, Message.decode .headerOnly p = .error e → Message.decode .full p = .error e) ∧
      (∀ m, Message.decode .full p = .ok m →
        Message.decode .headerOnly p = .ok m.withoutRecords) ∧
      ∀ e m, Message.decode .full p = .error e → Message.decode .headerOnly p = .ok m →
        e.concernsRecord = true) ∧
    (∃ m, (full.after m).next.item = none) ∧ (∃ n, (light.after n).next.item = none) ∧
    (∀ m n, (full.after m).next.item = none → (light.after n).next.item = none →
      Tracker.empty.run (full.collected m) = Tracker.empty.run (light.collected n)) ∧
    ((∀ f ∈ frames, f.hasRecordAtFault = false) → sound = frames) := by
  intro sound full light
  refine ⟨fun p => ⟨fun e => ?_, fun m => ?_, fun e m => ?_⟩, full.exists_item_eq_none,
    light.exists_item_eq_none, fun m n hm hn => ?_, fun hsound => ?_⟩
  · exact Message.decode_full_of_headerOnly_error
  · exact Message.decode_headerOnly_of_full_ok
  · exact Message.concernsRecord_of_decode
  · rw [collected_ofFrames hm, collected_ofFrames hn]
    show Tracker.empty.run (frames.filterMap (Frame.packet? .full)) =
      Tracker.empty.run (sound.filterMap (Frame.packet? .headerOnly))
    rw [Frame.filterMap_packet?_headerOnly, Tracker.run_withoutRecords]
  · refine List.filter_eq_self.mpr fun f hf => ?_
    rw [hsound f hf]
    rfl

/-- A message that ends within its only record. -/
example :
    let f : Frame := ⟨.loopback, ⟨0, 0⟩, [0, 0, 0, 0, 1, 1, 0, 0, 0, 0, 0, 7, 10]⟩
    f.hasRecordAtFault = true ∧ f.packet? .full = none ∧
      f.packet? .headerOnly = some ⟨⟨0, 0⟩, .unspecified, ⟨⟨.v1, 1, .none, 7⟩, .records []⟩⟩ :=
  ⟨rfl, rfl, rfl⟩

end PacketStream

end FlowTelemetry

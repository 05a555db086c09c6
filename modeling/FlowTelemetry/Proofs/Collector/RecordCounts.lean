import FlowTelemetry.Proofs.Collector.HeaderOnly
import FlowTelemetry.Proofs.Wire.RoundTrip

/-!
# Records that are counted and records that are delivered

There are two ways to find out how many records a sender has sent. A tracker
adds up the numbers in the headers of its messages. A stream of flows hands out
the records one by one, and they can be counted as they come. Nothing in the
code of either mentions the other.

The two numbers agree because a message is read either as a whole or not at
all: one that was read with its records has as many of them as its header says,
and no other gets as far as a tracker or a stream of flows. Counters are in the
way of neither. Their header may have any number in it, which a tracker does
not add, and there are no records to be handed out.

Without the records there is nothing to be counted on one side, and the other
side is as it was.
-/

namespace FlowTelemetry

variable {ε : Type}

/-! ## What a packet amounts to -/

namespace Packet

/-- How many records a packet adds to those of its sender. -/
def claimed (p : Packet) : Nat := if p.isData then p.setCount else 0

variable [Network.Slicer]

/-- A packet in a frame was read from some octets. -/
theorem exists_decode_of_ofFrame {detail : Detail} {f : Frame} {p : Packet}
    (h : ofFrame detail f = .ok p) : ∃ payload, Message.decode detail payload = .ok p.message := by
  rw [Frame.ofFrame_eq_match] at h
  split at h
  · exact nomatch h
  · next d _ =>
    split at h
    · exact nomatch h
    · next m hdecode =>
      cases h
      exact ⟨d.payload, hdecode⟩

/-- **A packet that was read in full has as many flows as it adds records.** -/
theorem length_flows_of_full {f : Frame} {p : Packet} (h : ofFrame .full f = .ok p) :
    p.flows.length = p.claimed := by
  obtain ⟨payload, hdecode⟩ := exists_decode_of_ofFrame h
  have hcoherent := (Message.Made.decoded hdecode).coherent
  obtain ⟨timestamp, source, header, body⟩ := p
  cases body with
  | stats s => rfl
  | records rs => exact (List.length_map _).trans hcoherent.2.2

/-- A packet of which only the header was read has no flows. -/
theorem flows_of_headerOnly {f : Frame} {p : Packet} (h : ofFrame .headerOnly f = .ok p) :
    p.flows = [] := by
  obtain ⟨payload, hdecode⟩ := exists_decode_of_ofFrame h
  have hnone : p.records = [] := Message.recordList_of_decode_headerOnly hdecode
  unfold flows
  rw [hnone]
  rfl

end Packet

/-! ## What a tracker counts -/

namespace Tracker

/-- How many records a tracker has counted for a sender. -/
def recordsOf (t : Tracker) (source : Endpoint) : Nat := (t.get? source).elim 0 (·.records)

/-- **A tracker adds up the numbers in the headers** of the packets with
records that a sender has sent. -/
theorem recordsOf_run_empty (ps : List Packet) (source : Endpoint) :
    (empty.run ps).recordsOf source =
      (((own source ps).filter Packet.isData).map Packet.setCount).sum := by
  unfold recordsOf
  rw [get?_run_empty]
  cases hstate : SourceState.ofPackets (own source ps) with
  | none =>
    cases hown : own source ps with
    | nil => rfl
    | cons p ps =>
      rw [hown] at hstate
      exact nomatch hstate
  | some state => exact (SourceState.ofPackets_summarises hstate).records

end Tracker

/-- Packets without records may be left in if they count for nothing. -/
theorem Packet.sum_map_claimed (ps : List Packet) :
    (ps.map claimed).sum = ((ps.filter isData).map setCount).sum := by
  induction ps with
  | nil => rfl
  | cons p ps ih =>
    rw [List.map_cons, List.sum_cons, ih, List.filter_cons, claimed]
    split
    · rw [List.map_cons, List.sum_cons]
    · exact Nat.zero_add _

/-! ## What a stream of flows hands out -/

/-- Whether an item is a flow from a sender. -/
def isFlowFrom (source : Endpoint) : Except ε Flow → Bool
  | .error _ => false
  | .ok flow => decide (flow.source = source)

/-- The flows of a packet all come from its sender. -/
theorem countP_unfoldItem (source : Endpoint) (p : Packet) :
    (unfoldItem (ε := ε) (.ok p)).countP (isFlowFrom source) =
      if p.source = source then p.flows.length else 0 := by
  have hsource : ∀ flow ∈ p.flows, flow.source = p.source := by
    intro flow hflow
    obtain ⟨r, -, rfl⟩ := List.mem_map.mp hflow
    rfl
  rw [unfoldItem_ok, List.countP_map]
  by_cases h : p.source = source
  · rw [if_pos h]
    exact List.countP_eq_length.mpr fun flow hflow => decide_eq_true ((hsource flow hflow).trans h)
  · rw [if_neg h]
    refine List.countP_eq_zero.mpr fun flow hflow hequal => h ?_
    exact (hsource flow hflow).symm.trans (of_decide_eq_true hequal)

/-- **The flows of a sender are those of its packets.** -/
theorem countP_flatMap_unfoldItem (source : Endpoint) (items : List (Except ε Packet)) :
    (items.flatMap unfoldItem).countP (isFlowFrom source) =
      ((Tracker.own source (items.filterMap Except.toOption)).map (·.flows.length)).sum := by
  induction items with
  | nil => rfl
  | cons item items ih =>
    rw [List.flatMap_cons, List.countP_append, ih]
    cases item with
    | error e => exact Nat.zero_add _
    | ok p =>
      show _ = ((Tracker.own source (p :: items.filterMap Except.toOption)).map _).sum
      rw [countP_unfoldItem, Tracker.own_cons]
      by_cases h : p.source = source
      · rw [if_pos h, if_pos h, List.map_cons, List.sum_cons]
      · rw [if_neg h, if_neg h, Nat.zero_add]

variable [Network.Slicer]

/-- The packets that are collected come from frames. -/
theorem PacketStream.exists_frame_of_collected {s : PacketStream ε} {n : Nat} {p : Packet}
    (h : p ∈ s.collected n) : ∃ f, Packet.ofFrame s.settings.detail f = .ok p := by
  obtain ⟨item, hitem, hp⟩ := List.mem_filterMap.mp h
  obtain ⟨k, last, hadvance⟩ := advance_after s n
  rw [hadvance.items] at hitem
  obtain ⟨event, -, hevent⟩ := List.mem_filterMap.mp hitem
  cases item with
  | error e => exact nomatch hp
  | ok packet =>
    cases hp
    obtain ⟨f, -, hf⟩ := Event.frame_of_item hevent
    exact ⟨f, hf⟩

namespace FlowStream

/-- At the end of both, a stream of flows has handed out the items of its
packets, unfolded. -/
theorem yielded_eq_flatMap {packets : PacketStream ε} {m n : Nat}
    (hm : (packets.after m).next.item = none)
    (hn : ((ofPackets packets).after n).next.item = none) :
    (ofPackets packets).yielded n = (packets.yielded m).flatMap unfoldItem := by
  rw [yielded_of_item_eq_none hn, packets.yielded_of_item_eq_none hm]
  rfl

/-- **As many records are delivered as are counted.** Over any script both a
stream of packets and the stream of its flows come to an end. By then, if
everything is read, as many flows of a sender have been handed out as a tracker
has counted records of it that was fed all the packets. If no records are read,
there were no flows at all, and the tracker has counted what the headers of the
sender's packets with records say. -/
theorem countP_flows_eq_recordsOf (settings : Settings) (script : List (Event ε))
    (source : Endpoint) :
    let packets := PacketStream.ofFeed settings (.ofEvents script)
    let flows := ofPackets packets
    (∃ m, (packets.after m).next.item = none) ∧ (∃ n, (flows.after n).next.item = none) ∧
      ∀ m n, (packets.after m).next.item = none → (flows.after n).next.item = none →
        let counted := (Tracker.empty.run (packets.collected m)).recordsOf source
        match settings.detail with
        | .full => (flows.yielded n).countP (isFlowFrom source) = counted
        | .headerOnly =>
          (∀ flow, Except.ok flow ∉ flows.yielded n) ∧
            counted = (((Tracker.own source (packets.collected m)).filter Packet.isData).map
              Packet.setCount).sum := by
  intro packets flows
  refine ⟨packets.exists_item_eq_none, flows.exists_item_eq_none, fun m n hm hn => ?_⟩
  intro counted
  have hcounted := Tracker.recordsOf_run_empty (packets.collected m) source
  have hyielded : flows.yielded n = _ := yielded_eq_flatMap hm hn
  have hframe : ∀ p ∈ packets.collected m, ∃ f, Packet.ofFrame settings.detail f = .ok p :=
    fun p hp => PacketStream.exists_frame_of_collected (s := packets) hp
  cases hdetail : settings.detail with
  | full =>
    show (flows.yielded n).countP (isFlowFrom source) = counted
    have hclaimed : ∀ p ∈ Tracker.own source (packets.collected m), p.flows.length = p.claimed := by
      intro p hp
      obtain ⟨f, hf⟩ := hframe p (List.mem_of_mem_filter hp)
      rw [hdetail] at hf
      exact Packet.length_flows_of_full hf
    calc (flows.yielded n).countP (isFlowFrom source)
        = ((Tracker.own source (packets.collected m)).map (·.flows.length)).sum := by
          rw [hyielded]
          exact countP_flatMap_unfoldItem source (packets.yielded m)
      _ = ((Tracker.own source (packets.collected m)).map Packet.claimed).sum :=
          congrArg List.sum (List.map_congr_left hclaimed)
      _ = counted := by rw [Packet.sum_map_claimed, ← hcounted]
  | headerOnly =>
    refine ⟨fun flow hflow => ?_, hcounted⟩
    rw [hyielded] at hflow
    obtain ⟨item, hitem, hmem⟩ := List.mem_flatMap.mp hflow
    cases item with
    | error e => exact nomatch List.mem_singleton.mp hmem
    | ok p =>
      obtain ⟨f, hf⟩ := hframe p (List.mem_filterMap.mpr ⟨.ok p, hitem, rfl⟩)
      rw [hdetail] at hf
      rw [unfoldItem_ok, Packet.flows_of_headerOnly hf] at hmem
      exact absurd hmem List.not_mem_nil

end FlowStream

end FlowTelemetry

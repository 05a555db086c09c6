import FlowTelemetry.Collector.FlowStream
import FlowTelemetry.Proofs.Collector.Walk

/-!
# A flow stream flattens a packet stream

A stream of flows hands out the records of a stream of packets, and keeps the
failures where they are. It should be no more than that stream with every
item unfolded, and it should be lazy: nothing is pulled from the feed while
there is a flow left to hand out.

A turn that asks for packets may take any number of turns of the packet
stream, since packets without flows are passed over. `Outcome` counts these
turns, and says everything else in terms of the packet stream after so many
turns. Nothing has to be said about the feed at this point, because what a
number of turns does to the feed is known.

Laziness is an invariant of a run. `Follows` relates a flow stream that is
under way to the number of packets that were asked for: the flows that are
left are those of the last of them.
-/

namespace FlowTelemetry

variable {ε : Type}

/-- What an item of a packet stream stands for in a flow stream: a packet with
records for a flow with each of them, a packet with a snapshot for nothing,
and a failure for itself. -/
def unfoldItem : Except ε Packet → List (Except ε Flow)
  | .error e => [.error e]
  | .ok packet =>
    match packet.message.body with
    | .stats _ => []
    | .records records => records.map fun r => .ok ⟨packet.timestamp, packet.source, r⟩

/-- A packet stands for its flows. -/
theorem unfoldItem_ok (packet : Packet) :
    unfoldItem (ε := ε) (.ok packet) = packet.flows.map .ok := by
  obtain ⟨timestamp, source, header, body⟩ := packet
  cases body with
  | stats snapshot => rfl
  | records records => exact List.map_map.symm

/-! ## The packet stream, turn by turn -/

namespace PacketStream

variable [Network.Slicer] (s : PacketStream ε)

theorem after_succ (n : Nat) : s.after (n + 1) = (s.after n).next.stream := by
  induction n generalizing s with
  | zero => rfl
  | succ n ih => exact ih s.next.stream

theorem after_add (m n : Nat) : s.after (m + n) = (s.after m).after n := by
  induction n with
  | zero => rfl
  | succ n ih => rw [← Nat.add_assoc, after_succ, after_succ, ih]

theorem yielded_succ (n : Nat) :
    s.yielded (n + 1) = s.yielded n ++ (s.after n).next.item.toList := by
  induction n generalizing s with
  | zero => exact (List.append_nil _).trans (List.nil_append _).symm
  | succ n ih =>
    show s.next.item.toList ++ s.next.stream.yielded (n + 1) = _
    rw [ih]
    exact (List.append_assoc ..).symm

theorem yielded_add (m n : Nat) : s.yielded (m + n) = s.yielded m ++ (s.after m).yielded n := by
  induction n with
  | zero => exact (List.append_nil _).symm
  | succ n ih => rw [← Nat.add_assoc, yielded_succ, yielded_succ, ih, List.append_assoc, after_add]

/-- What is ahead is what some turns yield, and then what is ahead after
them. -/
theorem yielded_append_ahead (n : Nat) : s.yielded n ++ (s.after n).ahead = s.ahead := by
  induction n generalizing s with
  | zero => rfl
  | succ n ih =>
    show s.next.item.toList ++ s.next.stream.yielded n ++ (s.next.stream.after n).ahead = _
    rw [List.append_assoc, ih]
    exact (next_outcome s).ahead_eq.symm

/-- A stream that yields nothing more has yielded all that was ahead. -/
theorem yielded_of_item_eq_none {n : Nat} (h : (s.after n).next.item = none) :
    s.yielded n = s.ahead := by
  rw [← yielded_append_ahead s n, (ahead_of_item_eq_none h).1, List.append_nil]

/-- Every stream comes to its end. -/
theorem exists_item_eq_none : ∃ n, (s.after n).next.item = none :=
  ⟨s.ahead.length, by rw [item_after, List.getElem?_eq_none (Nat.le_refl _)]⟩

/-- An item is that of the last event that was pulled for it. -/
theorem Outcome.event_of_item {s : PacketStream ε}
    {turn : Turn (PacketStream ε) (Except ε Packet)} (h : Outcome s turn)
    {item : Except ε Packet} (hitem : turn.item = some item) :
    ∃ passed event unread, s.feed.unread = passed ++ event :: unread ∧
      turn.stream.feed = ⟨unread, s.feed.pulls + (passed.length + 1)⟩ ∧
      event.item? s.settings.detail = some item ∧
      passed.filterMap (Event.item? s.settings.detail) = [] := by
  cases h with
  | afterEnd hdone => exact nomatch hitem
  | stopped hdone hstopped => exact nomatch hitem
  | ended => exact nomatch hitem
  | yielded hdone hstopped passed event unread hunread hpassed item' hevent =>
    cases hitem
    exact ⟨passed, event, unread, hunread, rfl, hevent, Walk.items_passed hpassed⟩

/-- **The events that are pulled for some items**: those of the items before,
and up to the event of the last one. -/
theorem event_of_item {n : Nat} {item : Except ε Packet}
    (hitem : (s.after n).next.item = some item) :
    ∃ passed event unread, s.feed.unread = passed ++ event :: unread ∧
      (s.after (n + 1)).feed = ⟨unread, s.feed.pulls + (passed.length + 1)⟩ ∧
      event.item? s.settings.detail = some item ∧
      passed.filterMap (Event.item? s.settings.detail) = s.yielded n := by
  obtain ⟨k, last, hadvance⟩ := advance_after s n
  obtain ⟨passed, event, unread, hunread, hfeed, hevent, hpassed⟩ :=
    (next_outcome (s.after n)).event_of_item hitem
  rw [hadvance.settings] at hevent hpassed
  rw [hadvance.feed] at hunread hfeed
  have hk : k ≤ s.feed.unread.length := by
    have hlength := congrArg List.length hunread
    rw [List.length_drop, List.length_append, List.length_cons] at hlength
    omega
  refine ⟨s.feed.unread.take k ++ passed, event, unread, ?_, ?_, hevent, ?_⟩
  · rw [List.append_assoc, ← hunread, List.take_append_drop]
  · rw [after_succ, hfeed, List.length_append, List.length_take, Nat.min_eq_left hk,
      ← Nat.add_assoc, ← Nat.add_assoc, ← Nat.add_assoc]
  · rw [List.filterMap_append, hpassed, List.append_nil, hadvance.items]

end PacketStream

/-- Packets come from frames. -/
theorem Event.frame_of_item [Network.Slicer] {detail : Detail} {event : Event ε} {packet : Packet}
    (h : event.item? detail = some (.ok packet)) :
    ∃ frame, event = .frame frame ∧ Packet.ofFrame detail frame = .ok packet := by
  cases event with
  | frame frame =>
    refine ⟨frame, rfl, ?_⟩
    rw [item?_frame] at h
    split at h
    · next packet' hframe =>
      cases h
      exact hframe
    · exact nomatch h
  | timeout => exact nomatch h
  | stopRequest => exact nomatch h
  | failure e => exact nomatch h
  | finished => exact nomatch h

namespace FlowStream

/-! ## One turn -/

/-- **The last item a turn asks for**, what is handed over of it, and the flows
that are kept. -/
inductive Hands : Option (Except ε Packet) → Option (Except ε Flow) → List Flow → Prop
  | ended : Hands none none []
  | failure (e : ε) : Hands (some (.error e)) (some (.error e)) []
  | flow {packet : Packet} {flow : Flow} {pending : List Flow}
    (hflows : packet.flows = flow :: pending) : Hands (some (.ok packet)) (some (.ok flow)) pending

namespace Hands

variable {last : Option (Except ε Packet)} {item : Option (Except ε Flow)} {flow : Flow}
  {pending : List Flow}

/-- Handed over and kept is what the last item stands for. -/
theorem balance (h : Hands last item pending) :
    last.toList.flatMap unfoldItem = item.toList ++ pending.map .ok := by
  cases h with
  | ended => rfl
  | failure e => rfl
  | flow hflows =>
    rw [Option.toList_some, List.flatMap_singleton, unfoldItem_ok, hflows]
    rfl

/-- Nothing is handed over at the end only. -/
theorem of_none (h : Hands last (none : Option (Except ε Flow)) pending) :
    last = none ∧ pending = [] := by
  cases h with
  | ended => exact ⟨rfl, rfl⟩

/-- A flow is handed over from its packet, and those after it are kept. -/
theorem of_flow (h : Hands last (some (.ok flow)) pending) :
    ∃ packet, last = some (.ok packet) ∧ packet.flows = flow :: pending := by
  cases h with
  | @flow packet _ _ hflows => exact ⟨packet, rfl, hflows⟩

/-- Flows are kept only behind one that is handed over. -/
theorem of_pending (h : Hands last item pending) (hpending : pending ≠ []) :
    ∃ flow, item = some (.ok flow) := by
  cases h with
  | ended => exact absurd rfl hpending
  | failure e => exact absurd rfl hpending
  | @flow _ flow _ _ => exact ⟨flow, rfl⟩

end Hands

variable [Network.Slicer]

/-- **What a turn comes to that asks for packets.** All but the last of the
packets asked for have no flows. -/
structure Outcome (packets : PacketStream ε) (turn : Turn (FlowStream ε) (Except ε Flow))
    (k : Nat) : Prop where
  passed : (packets.yielded k).flatMap unfoldItem = []
  hands : Hands (packets.after k).next.item turn.item turn.stream.pending
  reached : turn.stream.packets = packets.after (k + 1)
  log : turn.log = packets.logged (k + 1)

/-- One packet more is passed over. -/
theorem Outcome.passOver {packets : PacketStream ε} {turn : Turn (FlowStream ε) (Except ε Flow)}
    {k : Nat} {packet : Packet} (hitem : packets.next.item = some (.ok packet))
    (hflows : packet.flows = []) (h : Outcome packets.next.stream turn k) :
    Outcome packets { turn with log := packets.next.log ++ turn.log } (k + 1) where
  passed := by
    show (packets.next.item.toList ++ packets.next.stream.yielded k).flatMap unfoldItem = []
    rw [List.flatMap_append, h.passed, hitem, Option.toList_some, List.flatMap_singleton,
      unfoldItem_ok, hflows]
    rfl
  hands := h.hands
  reached := h.reached
  log := congrArg (packets.next.log ++ ·) h.log

/-- **Asking for packets goes on until there is a flow, a failure or the
end.** The induction follows the loop. -/
theorem advance_outcome (packets : PacketStream ε) : ∃ k, Outcome packets (advance packets) k := by
  fun_induction advance packets with
  | case1 packets turn hitem =>
    exact ⟨0, rfl, hitem.symm ▸ Hands.ended, rfl, (List.append_nil _).symm⟩
  | case2 packets turn e hitem =>
    exact ⟨0, rfl, hitem.symm ▸ Hands.failure e, rfl, (List.append_nil _).symm⟩
  | case3 packets turn packet hitem flow pending hflows =>
    exact ⟨0, rfl, hitem.symm ▸ Hands.flow hflows, rfl, (List.append_nil _).symm⟩
  | case4 packets turn packet hitem hflows hlt later ih =>
    obtain ⟨k, h⟩ := ih
    exact ⟨k + 1, h.passOver hitem hflows⟩

/-- A stream that has flows left hands over the first of them, and leaves its
packets alone. -/
theorem next_of_pending {s : FlowStream ε} {flow : Flow} {pending : List Flow}
    (h : s.pending = flow :: pending) : s.next = ⟨some (.ok flow), [], ⟨s.packets, pending⟩⟩ := by
  unfold next
  rw [h]

/-- A stream that has no flows left asks for packets. -/
theorem next_of_nil {s : FlowStream ε} (h : s.pending = []) : s.next = advance s.packets := by
  unfold next
  rw [h]

/-- Flows are left only after one was handed over. -/
theorem item_of_pending {s : FlowStream ε} (h : s.next.stream.pending ≠ []) :
    ∃ flow, s.next.item = some (.ok flow) := by
  cases hpending : s.pending with
  | cons flow pending => exact ⟨flow, by rw [next_of_pending hpending]⟩
  | nil =>
    rw [next_of_nil hpending] at h ⊢
    obtain ⟨k, hturn⟩ := advance_outcome s.packets
    exact hturn.hands.of_pending h

/-! ## What is ahead -/

/-- The items that are still ahead of a stream: the flows that are left of the
current packet, and all the items ahead of its packets, unfolded. -/
def ahead (s : FlowStream ε) : List (Except ε Flow) :=
  s.pending.map .ok ++ s.packets.ahead.flatMap unfoldItem

/-- **A turn hands over the first item ahead** and leaves the others. -/
theorem ahead_eq (s : FlowStream ε) : s.ahead = s.next.item.toList ++ s.next.stream.ahead := by
  cases hpending : s.pending with
  | cons flow pending =>
    rw [next_of_pending hpending]
    unfold ahead
    rw [hpending]
    rfl
  | nil =>
    obtain ⟨k, h⟩ := advance_outcome s.packets
    rw [next_of_nil hpending]
    unfold ahead
    rw [← List.append_assoc, ← h.hands.balance, h.reached, hpending,
      ← PacketStream.yielded_append_ahead s.packets (k + 1), PacketStream.yielded_succ,
      List.flatMap_append, List.flatMap_append, h.passed]
    rfl

/-- After a turn without an item there is nothing ahead. -/
theorem ahead_of_item_eq_none {s : FlowStream ε} (h : s.next.item = none) :
    s.next.stream.ahead = [] := by
  cases hpending : s.pending with
  | cons flow pending =>
    rw [next_of_pending hpending] at h
    exact nomatch h
  | nil =>
    obtain ⟨k, hturn⟩ := advance_outcome s.packets
    rw [next_of_nil hpending] at h ⊢
    obtain ⟨hlast, hnone⟩ := (h ▸ hturn.hands).of_none
    unfold ahead
    rw [hnone, hturn.reached, PacketStream.after_succ,
      (PacketStream.ahead_of_item_eq_none hlast).2]
    rfl

/-! ## Any number of turns -/

/-- The stream after a number of turns. -/
def after (s : FlowStream ε) : Nat → FlowStream ε
  | 0 => s
  | n + 1 => s.next.stream.after n

/-- The items of that many turns, in order. -/
def yielded (s : FlowStream ε) : Nat → List (Except ε Flow)
  | 0 => []
  | n + 1 => s.next.item.toList ++ s.next.stream.yielded n

/-- **The items of the turns are those ahead, one by one.** -/
theorem item_after (s : FlowStream ε) (n : Nat) : (s.after n).next.item = s.ahead[n]? := by
  induction n generalizing s with
  | zero =>
    show s.next.item = _
    rw [ahead_eq]
    cases h : s.next.item with
    | none => rw [ahead_of_item_eq_none h]; rfl
    | some item => rfl
  | succ n ih =>
    show (s.next.stream.after n).next.item = _
    rw [ih, ahead_eq s]
    cases h : s.next.item with
    | none => rw [ahead_of_item_eq_none h]; rfl
    | some item => rfl

theorem after_succ (s : FlowStream ε) (n : Nat) : s.after (n + 1) = (s.after n).next.stream := by
  induction n generalizing s with
  | zero => rfl
  | succ n ih => exact ih s.next.stream

theorem yielded_succ (s : FlowStream ε) (n : Nat) :
    s.yielded (n + 1) = s.yielded n ++ (s.after n).next.item.toList := by
  induction n generalizing s with
  | zero => exact (List.append_nil _).trans (List.nil_append _).symm
  | succ n ih =>
    show s.next.item.toList ++ s.next.stream.yielded (n + 1) = _
    rw [ih]
    exact (List.append_assoc ..).symm

/-- What is ahead is what some turns yield, and then what is ahead after
them. -/
theorem yielded_append_ahead (s : FlowStream ε) (n : Nat) :
    s.yielded n ++ (s.after n).ahead = s.ahead := by
  induction n generalizing s with
  | zero => rfl
  | succ n ih =>
    show s.next.item.toList ++ s.next.stream.yielded n ++ (s.next.stream.after n).ahead = _
    rw [List.append_assoc, ih, ← ahead_eq]

/-- A stream that yields nothing more has yielded all that was ahead. -/
theorem yielded_of_item_eq_none {s : FlowStream ε} {n : Nat} (h : (s.after n).next.item = none) :
    s.yielded n = s.ahead := by
  rw [← yielded_append_ahead s n, ahead_eq (s.after n), h, ahead_of_item_eq_none h]
  exact (List.append_nil _).symm

/-- Every stream comes to its end. -/
theorem exists_item_eq_none (s : FlowStream ε) : ∃ n, (s.after n).next.item = none :=
  ⟨s.ahead.length, by rw [item_after, List.getElem?_eq_none (Nat.le_refl _)]⟩

/-- **Where a stream is that has handed over some items.** It has asked for a
number of packets. Their items, unfolded, are those handed over and the flows
that are left, and the flows that are left are the last ones of the last
packet. -/
structure Follows (packets : PacketStream ε) (s : FlowStream ε)
    (handed : List (Except ε Flow)) (k : Nat) : Prop where
  reached : s.packets = packets.after k
  balance : (packets.yielded k).flatMap unfoldItem = handed ++ s.pending.map .ok
  current : s.pending ≠ [] → ∃ j packet before, s.packets = packets.after (j + 1) ∧
    (packets.after j).next.item = some (.ok packet) ∧ packet.flows = before ++ s.pending ∧
    handed = (packets.yielded j).flatMap unfoldItem ++ before.map .ok

namespace Follows

variable {packets : PacketStream ε} {s : FlowStream ε} {handed : List (Except ε Flow)} {k : Nat}

/-- **The packet that a flow comes from** is the last one asked for. -/
theorem packet_of_flow (h : Follows packets s handed k) {flow : Flow}
    (hitem : s.next.item = some (.ok flow)) :
    ∃ j packet before, s.next.stream.packets = packets.after (j + 1) ∧
      (packets.after j).next.item = some (.ok packet) ∧
      packet.flows = before ++ flow :: s.next.stream.pending ∧
      handed = (packets.yielded j).flatMap unfoldItem ++ before.map .ok := by
  cases hpending : s.pending with
  | cons flow' pending =>
    obtain ⟨j, packet, before, hreached, hpacket, hflows, hhanded⟩ :=
      h.current (hpending ▸ List.cons_ne_nil _ _)
    rw [next_of_pending hpending] at hitem ⊢
    cases hitem
    exact ⟨j, packet, before, hreached, hpacket, hflows.trans (congrArg _ hpending), hhanded⟩
  | nil =>
    obtain ⟨i, hturn⟩ := advance_outcome s.packets
    rw [next_of_nil hpending] at hitem ⊢
    obtain ⟨packet, hpacket, hflows⟩ := (hitem ▸ hturn.hands).of_flow
    have hpassed := hturn.passed
    have hbalance := h.balance
    rw [h.reached] at hpacket hpassed
    rw [hpending, List.map_nil, List.append_nil] at hbalance
    refine ⟨k + i, packet, [], ?_, ?_, hflows, ?_⟩
    · rw [hturn.reached, h.reached, ← PacketStream.after_add, Nat.add_assoc]
    · rw [PacketStream.after_add, hpacket]
    · rw [PacketStream.yielded_add, List.flatMap_append, hbalance, hpassed, List.append_nil,
        List.map_nil, List.append_nil]

/-- A stream that has not been asked yet. -/
theorem ofPackets (packets : PacketStream ε) : Follows packets (.ofPackets packets) [] 0 where
  reached := rfl
  balance := rfl
  current := fun h => absurd rfl h

/-- **One turn more.** -/
theorem next (h : Follows packets s handed k) :
    ∃ k', Follows packets s.next.stream (handed ++ s.next.item.toList) k' := by
  -- Flows are left only of a packet that one was handed over from.
  have hcurrent : s.next.stream.pending ≠ [] → ∃ j packet before,
      s.next.stream.packets = packets.after (j + 1) ∧
      (packets.after j).next.item = some (.ok packet) ∧
      packet.flows = before ++ s.next.stream.pending ∧
      handed ++ s.next.item.toList
        = (packets.yielded j).flatMap unfoldItem ++ before.map .ok := by
    intro hne
    obtain ⟨flow, hitem⟩ := item_of_pending hne
    obtain ⟨j, packet, before, hreached, hpacket, hflows, hhanded⟩ := h.packet_of_flow hitem
    refine ⟨j, packet, before ++ [flow], hreached, hpacket, ?_, ?_⟩
    · rw [hflows, List.append_assoc]
      rfl
    · rw [hhanded, hitem, List.map_append, List.append_assoc]
      rfl
  have hbalance := h.balance
  cases hpending : s.pending with
  | cons flow pending =>
    refine ⟨k, ?_, ?_, hcurrent⟩
    · rw [next_of_pending hpending]
      exact h.reached
    · rw [hbalance, next_of_pending hpending, hpending, List.append_assoc]
      rfl
  | nil =>
    obtain ⟨i, hturn⟩ := advance_outcome s.packets
    have hpassed := hturn.passed
    have hlast := hturn.hands.balance
    rw [h.reached] at hpassed hlast
    rw [hpending, List.map_nil, List.append_nil] at hbalance
    refine ⟨k + (i + 1), ?_, ?_, hcurrent⟩
    · rw [next_of_nil hpending, hturn.reached, h.reached, ← PacketStream.after_add]
    · rw [next_of_nil hpending, PacketStream.yielded_add, PacketStream.yielded_succ,
        List.flatMap_append, List.flatMap_append, hpassed, hbalance, hlast, List.nil_append,
        List.append_assoc]
      rw [h.reached]

end Follows

/-- **A run follows its packets.** -/
theorem follows_after (packets : PacketStream ε) (n : Nat) :
    ∃ k, Follows packets ((ofPackets packets).after n) ((ofPackets packets).yielded n) k := by
  induction n with
  | zero => exact ⟨0, .ofPackets packets⟩
  | succ n ih =>
    obtain ⟨k, h⟩ := ih
    rw [after_succ, yielded_succ]
    exact h.next

/-- **A flow stream is its packet stream, flattened.** The packets come to an
end, and the items of the flow stream are those of the packet stream, each
unfolded in its place; then there are none. While flows are left the packets
are not asked. When a flow is handed over, the feed has been read up to the
frame that the flow comes from and no further: everything before that frame
has been handed over, and of its packet all flows before this one. -/
theorem ofFeed_flatten (settings : Settings) (script : List (Event ε)) :
    let packets := PacketStream.ofFeed settings (.ofEvents script)
    let flows := ofPackets packets
    (∃ m, (packets.after m).next.item = none) ∧
      (∀ m, (packets.after m).next.item = none → ∀ n,
        (flows.after n).next.item = ((packets.yielded m).flatMap unfoldItem)[n]?) ∧
      (∀ n, (flows.after n).pending ≠ [] →
        (flows.after n).next.stream.packets = (flows.after n).packets) ∧
      ∀ n flow, (flows.after n).next.item = some (.ok flow) →
        ∃ passed frame unread packet before,
          script = passed ++ .frame frame :: unread ∧
          (flows.after (n + 1)).packets.feed = ⟨unread, passed.length + 1⟩ ∧
          Packet.ofFrame settings.detail frame = .ok packet ∧
          packet.flows = before ++ flow :: (flows.after (n + 1)).pending ∧
          flows.yielded n
            = (passed.filterMap (Event.item? settings.detail)).flatMap unfoldItem
              ++ before.map .ok := by
  intro packets flows
  refine ⟨⟨packets.ahead.length, ?_⟩, ?_, ?_, ?_⟩
  · rw [PacketStream.item_after, List.getElem?_eq_none (Nat.le_refl _)]
  · intro m hm n
    rw [item_after, PacketStream.yielded_of_item_eq_none packets hm]
    rfl
  · intro n hpending
    obtain ⟨flow, pending, hcons⟩ := List.exists_cons_of_ne_nil hpending
    rw [next_of_pending hcons]
  · intro n flow hitem
    obtain ⟨k, hfollows⟩ := follows_after packets n
    obtain ⟨j, packet, before, hreached, hpacket, hflows, hhanded⟩ :=
      hfollows.packet_of_flow hitem
    obtain ⟨passed, event, unread, hunread, hfeed, hevent, hpassed⟩ :=
      packets.event_of_item hpacket
    obtain ⟨frame, rfl, hframe⟩ := Event.frame_of_item hevent
    refine ⟨passed, frame, unread, packet, before, hunread, ?_, hframe, ?_, ?_⟩
    · rw [after_succ, hreached, hfeed]
      exact congrArg (Feed.mk unread) (Nat.zero_add _)
    · rw [after_succ, hflows]
    · exact hhanded.trans (congrArg (fun items => items.flatMap unfoldItem ++ _) hpassed.symm)

end FlowStream

end FlowTelemetry

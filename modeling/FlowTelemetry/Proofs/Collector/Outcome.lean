import FlowTelemetry.Collector.PacketStream

/-!
# What a turn of a packet stream can come to

Asked for its next item, a stream goes past any number of events before
something happens. Seen from outside there are only four ways for that to
turn out: the stream had ended already, or a stop had been requested, or some
event yields an item, or the events before the end yield none. `Outcome` says
for each of them, in full, what the turn holds, and `next_outcome` that there
is no fifth. Whatever is said about streams further on is said by looking at
these four, and never at the loop.

What an event yields by itself is written down first, from what unwrapping
and decoding say about its frame.
-/

namespace FlowTelemetry

variable {ε : Type}

/-- What a list yields is what its head yields, and then the rest. -/
theorem toList_append_filterMap {α β : Type} (f : α → Option β) (a : α) (as : List α) :
    (f a).toList ++ as.filterMap f = (a :: as).filterMap f := by
  rw [List.filterMap_cons]
  cases f a <;> rfl

/-! ## Single events -/

namespace Event

/-- Whether a stream comes to its end at an event. -/
def ends : Event ε → Bool
  | stopRequest | finished => true
  | frame _ | timeout | failure _ => false

/-- Whether an event is a frame. -/
def isFrame : Event ε → Bool
  | frame _ => true
  | timeout | stopRequest | failure _ | finished => false

variable [Network.Slicer]

/-- The item that an event yields: the packet of a frame that has one, or the
failure of the feed. -/
def item? (detail : Detail) : Event ε → Option (Except ε Packet)
  | frame f =>
    match f.unwrap with
    | .error _ => none
    | .ok datagram =>
      match Packet.ofDatagram detail datagram with
      | .error _ => none
      | .ok packet => some (.ok packet)
  | failure e => some (.error e)
  | timeout | stopRequest | finished => none

/-- What is logged about an event: something about every frame, and nothing
about anything else. -/
def report? (detail : Detail) : Event ε → Option LogEntry
  | frame f =>
    match f.unwrap with
    | .error error => some (.frameDropped f error)
    | .ok datagram =>
      match Packet.ofDatagram detail datagram with
      | .error error => some (.datagramDropped datagram error)
      | .ok packet => some (.collected packet)
  | failure _ | timeout | stopRequest | finished => none

/-- An event that a stream goes past without an item. -/
structure PassedOver (detail : Detail) (event : Event ε) : Prop where
  goesOn : event.ends = false
  itemless : event.item? detail = none

/-- A frame yields its packet, if it has one. -/
theorem item?_frame (detail : Detail) (f : Frame) :
    (frame f : Event ε).item? detail
      = match Packet.ofFrame detail f with
        | .ok packet => some (.ok packet)
        | .error _ => none := by
  simp only [item?, Packet.ofFrame]
  cases f.unwrap with
  | error e => rfl
  | ok datagram =>
    simp only
    cases Packet.ofDatagram detail datagram <;> rfl

/-- The word about a frame is about its packet, or about its being dropped. -/
theorem report?_frame (detail : Detail) (f : Frame) :
    (frame f : Event ε).report? detail
      = some (match Packet.ofFrame detail f with
        | .ok packet => .collected packet
        | .error entry => entry) := by
  simp only [report?, Packet.ofFrame]
  cases f.unwrap with
  | error e => rfl
  | ok datagram =>
    simp only
    cases Packet.ofDatagram detail datagram <;> rfl

end Event

/-! ## Turns -/

namespace PacketStream

/-- Why a stream ends that has come to the given events without an item. -/
def reason : List (Event ε) → LogEntry
  | .stopRequest :: _ => .stopped
  | _ => .finished

/-- Whether such a stream ends because a stop is requested. -/
def stopsAt : List (Event ε) → Bool
  | .stopRequest :: _ => true
  | _ => false

variable [Network.Slicer]

/-- **The four ways a turn can turn out.** What is unread is divided into the
events that are passed over and those that follow. -/
inductive Outcome (s : PacketStream ε) : Turn (PacketStream ε) (Except ε Packet) → Prop
  /-- The stream had ended before. -/
  | afterEnd (hdone : s.done = true) : Outcome s ⟨none, [], s⟩
  /-- A stop had been requested, and the feed is left alone. -/
  | stopped (hdone : s.done = false) (hstopped : s.stopped = true) :
    Outcome s (s.ending .stopped)
  /-- An event yields an item. -/
  | yielded (hdone : s.done = false) (hstopped : s.stopped = false)
    (passed : List (Event ε)) (event : Event ε) (unread : List (Event ε))
    (hunread : s.feed.unread = passed ++ event :: unread)
    (hpassed : ∀ e ∈ passed, e.PassedOver s.settings.detail)
    (item : Except ε Packet) (hitem : event.item? s.settings.detail = some item) :
    Outcome s
      { item := some item
        log := (passed ++ [event]).filterMap (Event.report? s.settings.detail)
        stream := { s with feed := ⟨unread, s.feed.pulls + (passed.length + 1)⟩ } }
  /-- The events come to their end, or to one that ends the stream. -/
  | ended (hdone : s.done = false) (hstopped : s.stopped = false)
    (passed rest : List (Event ε))
    (hunread : s.feed.unread = passed ++ rest)
    (hpassed : ∀ e ∈ passed, e.PassedOver s.settings.detail)
    (hrest : ∀ e ∈ rest.head?, e.ends = true) :
    Outcome s
      { item := none
        log := passed.filterMap (Event.report? s.settings.detail) ++ [reason rest]
        stream :=
          { s with
            feed := ⟨rest.tail, s.feed.pulls + (passed.length + 1)⟩
            stopped := stopsAt rest
            done := true } }

namespace Outcome

variable {s : PacketStream ε} {turn : Turn (PacketStream ε) (Except ε Packet)}

/-- **An event that is passed over changes nothing else.** What can be said of
the turn over the events after it can be said of the turn that begins with
it, with the word about it in front. -/
theorem passOver (hdone : s.done = false) (hstopped : s.stopped = false)
    {event : Event ε} {unread : List (Event ε)} (hunread : s.feed.unread = event :: unread)
    (hevent : event.PassedOver s.settings.detail)
    (h : Outcome { s with feed := s.feed.pulled unread } turn) :
    Outcome s { turn with log := (event.report? s.settings.detail).toList ++ turn.log } := by
  have hfront : ∀ passed : List (Event ε), (∀ e ∈ passed, e.PassedOver s.settings.detail) →
      ∀ e ∈ event :: passed, e.PassedOver s.settings.detail :=
    fun passed hpassed => List.forall_mem_cons.mpr ⟨hevent, hpassed⟩
  have hlog := toList_append_filterMap (Event.report? s.settings.detail) event
  have hpulls : ∀ n : Nat, s.feed.pulls + 1 + (n + 1) = s.feed.pulls + (n + 1 + 1) := by
    intro n
    rw [Nat.add_assoc, Nat.add_comm 1]
  cases h with
  | afterEnd h => exact absurd (hdone.symm.trans h) Bool.false_ne_true
  | stopped _ h => exact absurd (hstopped.symm.trans h) Bool.false_ne_true
  | yielded _ _ passed event' later hunread' hpassed item hitem =>
    have hwhole : s.feed.unread = (event :: passed) ++ event' :: later := by
      rw [hunread]
      exact congrArg (event :: ·) hunread'
    have := yielded hdone hstopped _ _ _ hwhole (hfront passed hpassed) item hitem
    rw [List.cons_append, ← hlog, List.length_cons, ← hpulls] at this
    exact this
  | ended _ _ passed rest hunread' hpassed hrest =>
    have hwhole : s.feed.unread = (event :: passed) ++ rest := by
      rw [hunread]
      exact congrArg (event :: ·) hunread'
    have := ended hdone hstopped _ _ hwhole (hfront passed hpassed) hrest
    rw [← hlog, List.length_cons, ← hpulls, List.append_assoc] at this
    exact this

end Outcome

/-- A stop that was requested is noticed before anything is pulled. -/
theorem scan_of_stopped {s : PacketStream ε} (h : s.stopped = true) (unread : List (Event ε)) :
    scan s unread = { s with feed.unread := unread }.ending .stopped := by
  cases unread with
  | nil =>
    rw [scan, if_pos h]
  | cons event unread =>
    rw [scan, if_pos h]

/-- A stream that has not ended turns out in one of the four ways. The
induction is on what is unread, since going past an event leaves the same
stream with one event less. -/
theorem scan_outcome (s : PacketStream ε) (hdone : s.done = false) (unread : List (Event ε)) :
    Outcome { s with feed.unread := unread } (scan s unread) := by
  have hnone : ∀ e ∈ ([] : List (Event ε)), e.PassedOver s.settings.detail :=
    fun _ h => absurd h List.not_mem_nil
  induction unread generalizing s with
  | nil =>
    rw [scan]
    split
    · next hstopped => exact .stopped hdone hstopped
    · next hstopped =>
      have hgo : s.stopped = false := Bool.eq_false_iff.mpr hstopped
      have := @Outcome.ended ε _ { s with feed.unread := [] } hdone hgo [] [] rfl hnone
        (fun _ h => absurd h (Option.not_mem_none _))
      rw [show stopsAt ([] : List (Event ε)) = s.stopped from hgo.symm] at this
      exact this
  | cons event unread ih =>
    rw [scan]
    split
    · next hstopped => exact .stopped hdone hstopped
    · next hstopped =>
      have hgo : s.stopped = false := Bool.eq_false_iff.mpr hstopped
      let before : PacketStream ε := { s with feed.unread := event :: unread }
      let after : PacketStream ε := { s with feed := s.feed.pulled unread }
      have hpass := @Outcome.passOver ε _ before (scan after unread) hdone hgo event unread rfl
      have hyield := @Outcome.yielded ε _ before hdone hgo [] event unread rfl hnone
      have hend := @Outcome.ended ε _ before hdone hgo [] (event :: unread) rfl hnone
      cases event with
      | timeout => exact hpass ⟨rfl, rfl⟩ (ih after hdone hnone)
      | stopRequest =>
        show Outcome before (scan after.stop unread)
        rw [scan_of_stopped rfl]
        exact hend fun _ h => by cases h; rfl
      | finished =>
        have := hend fun _ h => by cases h; rfl
        rw [show stopsAt (.finished :: unread) = s.stopped from hgo.symm] at this
        exact this
      | failure e => exact hyield (.error e) rfl
      | frame f =>
        have hitem := @Event.item?_frame ε _ s.settings.detail f
        have hreport := @Event.report?_frame ε _ s.settings.detail f
        simp only
        cases hf : Packet.ofFrame s.settings.detail f with
        | ok packet =>
          rw [hf] at hitem hreport
          have := hyield (.ok packet) hitem
          rw [List.nil_append, List.filterMap_cons, hreport] at this
          exact this
        | error entry =>
          rw [hf] at hitem hreport
          have := hpass ⟨rfl, hitem⟩ (ih after hdone hnone)
          rw [hreport] at this
          exact this

/-- **Every turn turns out in one of the four ways.** -/
theorem next_outcome (s : PacketStream ε) : Outcome s s.next := by
  unfold next
  split
  · next hdone => exact .afterEnd hdone
  · next hdone => exact scan_outcome s (Bool.eq_false_iff.mpr hdone) s.feed.unread

end PacketStream

end FlowTelemetry

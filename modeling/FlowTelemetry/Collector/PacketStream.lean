import FlowTelemetry.Capture.Feed
import FlowTelemetry.Capture.Settings
import FlowTelemetry.Collector.LogEntry

/-!
# Streams of packets

A `PacketStream` pulls frames from a feed and turns them into packets. Asked
for the next item it goes on pulling until there is one: timeouts are passed
over, and so are frames without a packet in them, after a word in the log. A
failure of the feed is an item like a packet, since the feed may well go on
after it.

The stream ends when the feed does or when a stop was requested, whichever it
notices first. A request is looked for before every pull. After the end the
stream does nothing any more: the feed is left alone and nothing is logged.

Being asked is a `Turn`: what came of it, what was logged, and the stream
after it.
-/

namespace FlowTelemetry

/-- What came of asking a stream of type `σ` for its next item. -/
structure Turn (σ α : Type) where
  /-- The item, unless the stream is at its end. -/
  item : Option α
  /-- What was logged, in order. -/
  log : List LogEntry
  /-- The stream after the turn. -/
  stream : σ

/-- The same turn, but with an entry in front of what was logged. -/
def Turn.logging {σ α : Type} (turn : Turn σ α) (entry : LogEntry) : Turn σ α :=
  { turn with log := entry :: turn.log }

/-- A stream of packets from a feed. -/
structure PacketStream (ε : Type) where
  settings : Settings
  feed : Feed ε
  /-- Whether a stop was requested. -/
  stopped : Bool
  /-- Whether the stream has come to its end. -/
  done : Bool
  deriving DecidableEq

/-- The packet in a frame, or the entry about its being dropped. -/
def Packet.ofFrame [Network.Slicer] (detail : Detail) (frame : Frame) : Except LogEntry Packet :=
  match frame.unwrap with
  | .error e => .error (.frameDropped frame e)
  | .ok datagram =>
    match Packet.ofDatagram detail datagram with
    | .error e => .error (.datagramDropped datagram e)
    | .ok packet => .ok packet

namespace PacketStream

variable {ε : Type}

/-- A stream that has not begun. -/
def ofFeed (settings : Settings) (feed : Feed ε) : PacketStream ε :=
  { settings, feed, stopped := false, done := false }

/-- Requests the stream to stop. -/
def stop (s : PacketStream ε) : PacketStream ε := { s with stopped := true }

/-- A turn that ends the stream. -/
def ending (s : PacketStream ε) (why : LogEntry) : Turn (PacketStream ε) (Except ε Packet) :=
  ⟨none, [why], { s with done := true }⟩

variable [Network.Slicer]

/-- Goes through the events that are unread until there is an item or the
stream ends. The stream is `s` but for what is unread. -/
def scan (s : PacketStream ε) : List (Event ε) → Turn (PacketStream ε) (Except ε Packet)
  | [] =>
    if s.stopped then { s with feed.unread := [] }.ending .stopped
    else { s with feed := s.feed.pulled [] }.ending .finished
  | event :: unread =>
    if s.stopped then { s with feed.unread := event :: unread }.ending .stopped
    else
      let after : PacketStream ε := { s with feed := s.feed.pulled unread }
      match event with
      | .timeout => scan after unread
      | .stopRequest => scan after.stop unread
      | .finished => after.ending .finished
      | .failure e => ⟨some (.error e), [], after⟩
      | .frame frame =>
        match Packet.ofFrame s.settings.detail frame with
        | .ok packet => ⟨some (.ok packet), [.collected packet], after⟩
        | .error entry => (scan after unread).logging entry

/-- Asks for the next item. -/
def next (s : PacketStream ε) : Turn (PacketStream ε) (Except ε Packet) :=
  if s.done then ⟨none, [], s⟩ else scan s s.feed.unread

/-! ## Progress -/

/-- An item is made of at least one event. -/
theorem length_unread_scan_lt (s : PacketStream ε) (unread : List (Event ε))
    (h : (scan s unread).item.isSome) :
    (scan s unread).stream.feed.unread.length < unread.length := by
  induction unread generalizing s with
  | nil => simp only [scan] at h; split at h <;> simp [ending] at h
  | cons event unread ih =>
    simp only [scan] at h ⊢
    split at h
    · simp [ending] at h
    · next hs =>
      simp only [hs] at h ⊢
      cases event with
      | timeout => exact Nat.lt_succ_of_lt (ih _ h)
      | stopRequest => exact Nat.lt_succ_of_lt (ih _ h)
      | finished => simp [ending] at h
      | failure e => simp [Feed.pulled]
      | frame frame =>
        simp only at h ⊢
        split at h
        · simp [Feed.pulled, *]
        · next entry _ =>
          simp only [Turn.logging] at h ⊢
          exact Nat.lt_succ_of_lt (ih _ h)

/-- A stream that yields an item has fewer events left to read. -/
theorem length_unread_next_lt (s : PacketStream ε) (h : s.next.item.isSome) :
    s.next.stream.feed.unread.length < s.feed.unread.length := by
  simp only [next] at h ⊢
  split at h
  · simp at h
  · next hdone =>
    simp only [hdone]
    exact length_unread_scan_lt s _ h

end PacketStream

end FlowTelemetry

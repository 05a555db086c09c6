import FlowTelemetry.Proofs.Collector.Flattening

/-!
# Stopping and ending are final

A stream may be asked for its next item and told to stop at any time and in
any order: before the first pull, among the records of a packet, after a
failure, after the end. Whatever the order, a stream that was told to stop
does not touch its feed again, and a stream that has come to its end does
nothing at all.

Streams of packets and streams of flows are alike in this. Both have a packet
stream behind them, and what they hand over are the parts of its items: the
item itself, or the flows of a packet. Parts that are left are handed over
first, and only then the packets are asked. `Outlet` is a stream seen in this
way, and `Outlet.Lawful` says that it is one. Nothing else is known of a
stream when runs are looked at, so every step is proved once.

The laws of a step are about the packet stream after so many turns. It is
known what these do to the feed and to the log, and all that is added here is
what they do after a stop, and a bound on what they pull.
-/

namespace FlowTelemetry

variable {ε : Type} [Network.Slicer]

/-! ## Packet streams that are told to stop -/

namespace PacketStream

variable {s s' : PacketStream ε}

/-- A stream that is told to stop ends at once, and nothing else changes. -/
theorem stream_next_of_stopped (h : s.stopped = true) :
    s.next.stream = { s with done := true } := by
  unfold next
  cases hdone : s.done with
  | true =>
    rw [if_pos rfl, ← hdone]
  | false =>
    rw [if_neg Bool.false_ne_true, scan_of_stopped h]
    rfl

/-- After its first turn it stays as it is. -/
theorem after_succ_of_stopped (h : s.stopped = true) (n : Nat) :
    s.after (n + 1) = { s with done := true } := by
  show s.next.stream.after n = _
  rw [stream_next_of_stopped h, after_of_done rfl]

/-- A stream that is told to stop has nothing ahead. -/
theorem ahead_of_stopped (h : s.stopped = true) : s.ahead = [] := by
  unfold ahead
  rw [h, Bool.or_true]
  rfl

/-- A stream that has nothing ahead yields no item at any time. -/
theorem item_after_of_ahead_eq_nil (h : s.ahead = []) (n : Nat) : (s.after n).next.item = none := by
  rw [item_after, h]
  rfl

/-- A stream that has ended logs nothing. -/
theorem logged_eq_nil_of_done (h : s.done = true) (n : Nat) : s.logged n = [] := by
  have hnone : s.logAhead = [] := by
    unfold logAhead
    rw [h]
    rfl
  exact (List.append_eq_nil_iff.mp ((logged_append s n).trans hnone)).1

/-- After a turn a stream has ended just when there was no item. -/
theorem done_after_succ (s : PacketStream ε) (n : Nat) :
    (s.after (n + 1)).done = (s.after n).next.item.isNone := by
  rw [after_succ]
  exact (next_outcome (s.after n)).done_stream

/-- **One pull for every event, and one to learn that there are no more.** The
last one ends the stream, so it is made once. -/
theorem Outcome.pulls_le {turn : Turn (PacketStream ε) (Except ε Packet)} (h : Outcome s turn) :
    turn.stream.feed.pulls + turn.stream.feed.unread.length + s.done.toNat
      ≤ s.feed.pulls + s.feed.unread.length + turn.stream.done.toNat := by
  cases h with
  | afterEnd hdone => exact Nat.le_refl _
  | stopped hdone hstopped =>
    rw [hdone]
    exact Nat.le_succ _
  | yielded hdone hstopped passed event unread hunread hpassed item hitem =>
    simp only [hunread, List.length_append, List.length_cons]
    omega
  | ended hdone hstopped passed rest hunread hpassed hrest =>
    simp only [hdone, hunread, List.length_append, List.length_tail, Bool.toNat_false,
      Bool.toNat_true]
    omega

/-- Any number of turns pulls no more than that. -/
theorem pulls_after_le (s : PacketStream ε) (n : Nat) :
    (s.after n).feed.pulls + (s.after n).feed.unread.length + s.done.toNat
      ≤ s.feed.pulls + s.feed.unread.length + (s.after n).done.toNat := by
  induction n generalizing s with
  | zero => exact Nat.le_refl _
  | succ n ih =>
    have hfirst := (next_outcome s).pulls_le
    have hlater := ih s.next.stream
    show (s.next.stream.after n).feed.pulls + (s.next.stream.after n).feed.unread.length
      + s.done.toNat ≤ s.feed.pulls + s.feed.unread.length + (s.next.stream.after n).done.toNat
    omega

/-- Telling a stream to stop is not seen in what it has pulled and logged. -/
theorem Advance.stop {items : List (Except ε Packet)} {log last : List LogEntry} {k : Nat}
    (h : Advance s s' items log k last) : Advance s s'.stop items log k last :=
  ⟨h.settings, h.feed, h.items, h.log, h.debug, h.once, h.rests⟩

end PacketStream

/-! ## Streams with packets behind them -/

/-- What a stream can be asked: for its next item, or to stop. -/
inductive Call where
  | next
  | stop
  deriving DecidableEq, Repr

/-- A stream of items that are parts of the items of a packet stream. -/
structure Outlet (ε σ α : Type) where
  next : σ → Turn σ α
  stop : σ → σ
  /-- The packet stream behind it. -/
  packets : σ → PacketStream ε
  /-- The parts that an item of the packet stream has. -/
  parts : Except ε Packet → List α
  /-- The parts that are left of the last item that was asked for. -/
  left : σ → List α

namespace Outlet

variable {σ α : Type}

/-- **A turn that asks for packets.** All but the last of the items that it
asks for have no parts. The first part of that one is handed over and the
others are left. -/
structure Asks (O : Outlet ε σ α) (s : σ) (k : Nat) : Prop where
  passed : ((O.packets s).yielded k).flatMap O.parts = []
  divided : ((O.packets s).after k).next.item.toList.flatMap O.parts
    = (O.next s).item.toList ++ O.left (O.next s).stream
  ended : (O.next s).item.isNone = ((O.packets s).after k).next.item.isNone
  reached : O.packets (O.next s).stream = (O.packets s).after (k + 1)
  log : (O.next s).log = (O.packets s).logged (k + 1)

/-- **What makes a stream an outlet.** Parts that are left come first, and the
packets are asked when there are none. A request to stop goes to the packets
and takes nothing away. -/
structure Lawful (O : Outlet ε σ α) : Prop where
  packets_stop : ∀ s, O.packets (O.stop s) = (O.packets s).stop
  left_stop : ∀ s, O.left (O.stop s) = O.left s
  next_cons : ∀ s item later, O.left s = item :: later →
    (O.next s).item = some item ∧ (O.next s).log = [] ∧
      O.packets (O.next s).stream = O.packets s ∧ O.left (O.next s).stream = later
  next_nil : ∀ s, O.left s = [] → ∃ k, O.Asks s k

/-! ## Runs -/

/-- The stream after a call. -/
def step (O : Outlet ε σ α) (s : σ) : Call → σ
  | .next => (O.next s).stream
  | .stop => O.stop s

/-- The stream after some calls. -/
def after (O : Outlet ε σ α) (s : σ) (calls : List Call) : σ := calls.foldl O.step s

/-- The turns of some calls, in order. -/
def turns (O : Outlet ε σ α) (s : σ) : List Call → List (Turn σ α)
  | [] => []
  | .next :: calls => O.next s :: O.turns (O.next s).stream calls
  | .stop :: calls => O.turns (O.stop s) calls

/-- The items that some calls hand over, in order. -/
def items (O : Outlet ε σ α) (s : σ) (calls : List Call) : List α :=
  (O.turns s calls).flatMap (·.item.toList)

/-- What some calls log, in order. -/
def logged (O : Outlet ε σ α) (s : σ) (calls : List Call) : List LogEntry :=
  (O.turns s calls).flatMap (·.log)

/-- Whether there was no item at one of the calls. -/
def ended (O : Outlet ε σ α) (s : σ) (calls : List Call) : Bool :=
  (O.turns s calls).any (·.item.isNone)

/-- **From here on the stream is stopped**: whatever is called, the request
stands, the feed is left alone, and asking brings what is left now, item by
item, and then nothing. -/
def RunsOut (O : Outlet ε σ α) (s : σ) : Prop :=
  ∀ later : List Call,
    (O.packets (O.after s later)).stopped = true ∧
      (O.packets (O.after s later)).feed = (O.packets s).feed ∧
      (O.next (O.after s later)).item = (O.left s)[later.count .next]?

/-- **From here on the stream is at rest**: whatever is called, the feed is
left alone, and asking brings nothing and is not logged. -/
def AtRest (O : Outlet ε σ α) (s : σ) : Prop :=
  ∀ later : List Call,
    (O.packets (O.after s later)).feed = (O.packets s).feed ∧
      (O.next (O.after s later)).item = none ∧
      (O.next (O.after s later)).log = []

/-- **What was handed over on the way from one state to another, and what is
left.** The events that were pulled have some items. Of all but the last of
them every part was handed over, and of the last one the parts up to those
that are left. -/
def Delivered (O : Outlet ε σ α) (start s : σ) (handed : List α) (log : List LogEntry) : Prop :=
  ∃ (earlier : List (Except ε Packet)) (current : Option (Except ε Packet)) (before : List α)
      (k : Nat) (last : List LogEntry),
    PacketStream.Advance (O.packets start) (O.packets s) (earlier ++ current.toList) log k last ∧
      current.toList.flatMap O.parts = before ++ O.left s ∧
      handed = earlier.flatMap O.parts ++ before

/-- **Stopping and ending are final**: what holds after some calls, and of the
next one. -/
structure Final (O : Outlet ε σ α) (start : σ) (calls : List Call) : Prop where
  /-- A request to stop has been noted. -/
  stopped : .stop ∈ calls → (O.packets (O.after start calls)).stopped = true
  /-- A request that has been noted is obeyed. -/
  runsOut : (O.packets (O.after start calls)).stopped = true → O.RunsOut (O.after start calls)
  /-- What is left belongs to the packet that is being handed out. -/
  delivered : O.Delivered start (O.after start calls) (O.items start calls) (O.logged start calls)
  /-- After a call without an item there is nothing more to come. -/
  atRest : O.ended start calls = true → O.AtRest (O.after start calls)
  /-- The last word is logged by the first call without an item. -/
  lastWord : (O.next (O.after start calls)).log.countP (·.level = .debug)
    = if (O.next (O.after start calls)).item.isNone && !O.ended start calls then 1 else 0
  /-- Before that call there is no last word, and after it there is one. -/
  oneLastWord : (O.logged start calls).countP (·.level = .debug)
    = if O.ended start calls then 1 else 0
  /-- A call pulls no more than what is unread, and the end. -/
  pulls : (O.packets (O.next (O.after start calls)).stream).feed.pulls
    ≤ (O.packets (O.after start calls)).feed.pulls
      + ((O.packets (O.after start calls)).feed.unread.length + 1)

/-- Nothing is left when the packets have come to their end. -/
def Sound (O : Outlet ε σ α) (s : σ) : Prop := (O.packets s).done = true → O.left s = []

namespace Lawful

variable {O : Outlet ε σ α} {s start : σ} {handed : List α} {log : List LogEntry}

/-! ## One call -/

omit [Network.Slicer] in
/-- A stream with parts left has not come to its end. -/
theorem done_of_cons (h : O.Sound s) {item : α} {later : List α}
    (hleft : O.left s = item :: later) : (O.packets s).done = false := by
  rw [Bool.eq_false_iff]
  intro hdone
  exact nomatch hleft.symm.trans (h hdone)

/-- **There is no item just when the packets have come to their end.** -/
theorem isNone_next (law : O.Lawful) (h : O.Sound s) :
    (O.next s).item.isNone = (O.packets (O.next s).stream).done := by
  cases hleft : O.left s with
  | cons item later =>
    obtain ⟨hitem, -, hpackets, -⟩ := law.next_cons s item later hleft
    rw [hitem, hpackets, done_of_cons h hleft]
    rfl
  | nil =>
    obtain ⟨k, hasks⟩ := law.next_nil s hleft
    rw [hasks.ended, hasks.reached, PacketStream.done_after_succ]

theorem sound_next (law : O.Lawful) (h : O.Sound s) : O.Sound (O.next s).stream := by
  intro hdone
  cases hleft : O.left s with
  | cons item later =>
    obtain ⟨-, -, hpackets, -⟩ := law.next_cons s item later hleft
    rw [hpackets, done_of_cons h hleft] at hdone
    exact nomatch hdone
  | nil =>
    obtain ⟨k, hasks⟩ := law.next_nil s hleft
    have hdivided := hasks.divided
    rw [hasks.reached, PacketStream.done_after_succ, Option.isNone_iff_eq_none] at hdone
    rw [hdone] at hdivided
    exact (List.append_eq_nil_iff.mp hdivided.symm).2

theorem sound_stop (law : O.Lawful) (h : O.Sound s) : O.Sound (O.stop s) := by
  unfold Sound
  rw [law.packets_stop, law.left_stop]
  exact h

theorem stopped_stop (law : O.Lawful) (s : σ) : (O.packets (O.stop s)).stopped = true := by
  rw [law.packets_stop]
  rfl

/-- **A stopped stream hands over the first part that is left**, if there is
one, and leaves its feed alone. -/
theorem next_of_stopped (law : O.Lawful) (h : (O.packets s).stopped = true) :
    (O.next s).item = (O.left s)[0]? ∧
      O.left (O.next s).stream = (O.left s).tail ∧
      (O.packets (O.next s).stream).stopped = true ∧
      (O.packets (O.next s).stream).feed = (O.packets s).feed := by
  cases hleft : O.left s with
  | cons item later =>
    obtain ⟨hitem, -, hpackets, hlater⟩ := law.next_cons s item later hleft
    rw [hpackets]
    exact ⟨hitem, hlater, h, rfl⟩
  | nil =>
    obtain ⟨k, hasks⟩ := law.next_nil s hleft
    have hlast := PacketStream.item_after_of_ahead_eq_nil (PacketStream.ahead_of_stopped h) k
    have hdivided := hasks.divided
    rw [hlast] at hdivided
    obtain ⟨hitem, hlater⟩ := List.append_eq_nil_iff.mp hdivided.symm
    rw [hasks.reached, PacketStream.after_succ_of_stopped h]
    exact ⟨Option.toList_eq_nil_iff.mp hitem, hlater, h, rfl⟩

/-- **A stream that has come to its end does nothing.** -/
theorem next_of_done (law : O.Lawful) (h : O.Sound s) (hdone : (O.packets s).done = true) :
    (O.next s).item = none ∧ (O.next s).log = [] ∧
      O.packets (O.next s).stream = O.packets s := by
  obtain ⟨k, hasks⟩ := law.next_nil s (h hdone)
  refine ⟨?_, ?_, ?_⟩
  · rw [← Option.isNone_iff_eq_none, hasks.ended,
      PacketStream.item_after_of_ahead_eq_nil (PacketStream.ahead_of_done hdone)]
    rfl
  · rw [hasks.log, PacketStream.logged_eq_nil_of_done hdone]
  · rw [hasks.reached, PacketStream.after_of_done hdone]

/-- A turn pulls every unread event at most once, and the end at most once. -/
theorem pulls_next_le (law : O.Lawful) (s : σ) :
    (O.packets (O.next s).stream).feed.pulls
      ≤ (O.packets s).feed.pulls + ((O.packets s).feed.unread.length + 1) := by
  cases hleft : O.left s with
  | cons item later =>
    obtain ⟨-, -, hpackets, -⟩ := law.next_cons s item later hleft
    rw [hpackets]
    exact Nat.le_add_right _ _
  | nil =>
    obtain ⟨k, hasks⟩ := law.next_nil s hleft
    have hpulls := PacketStream.pulls_after_le (O.packets s) (k + 1)
    have hdone := Bool.toNat_le ((O.packets s).after (k + 1)).done
    rw [hasks.reached]
    omega

/-- **What is delivered by a turn.** A part that is left belongs to the item
that is being handed out, and otherwise the packets are asked for another. -/
theorem delivered_next (law : O.Lawful) (h : O.Delivered start s handed log) :
    O.Delivered start (O.next s).stream (handed ++ (O.next s).item.toList)
      (log ++ (O.next s).log) := by
  obtain ⟨earlier, current, before, k, last, hadvance, hparts, hhanded⟩ := h
  cases hleft : O.left s with
  | cons item later =>
    obtain ⟨hitem, hlog, hpackets, hlater⟩ := law.next_cons s item later hleft
    refine ⟨earlier, current, before ++ [item], k, last, ?_, ?_, ?_⟩
    · rw [hpackets, hlog, List.append_nil]
      exact hadvance
    · rw [hparts, hleft, hlater, List.append_assoc]
      rfl
    · rw [hhanded, hitem, List.append_assoc]
      rfl
  | nil =>
    obtain ⟨i, hasks⟩ := law.next_nil s hleft
    obtain ⟨k', last', hlater⟩ := PacketStream.advance_after (O.packets s) (i + 1)
    rw [hleft, List.append_nil] at hparts
    refine ⟨earlier ++ current.toList ++ (O.packets s).yielded i,
      ((O.packets s).after i).next.item, (O.next s).item.toList, k + k', last ++ last', ?_,
      hasks.divided, ?_⟩
    · rw [List.append_assoc, ← PacketStream.yielded_succ, hasks.reached, hasks.log]
      exact hadvance.trans hlater
    · rw [List.flatMap_append, List.flatMap_append, hasks.passed, List.append_nil, hparts, hhanded]

/-- A request to stop delivers nothing and takes nothing away. -/
theorem delivered_stop (law : O.Lawful) (h : O.Delivered start s handed log) :
    O.Delivered start (O.stop s) handed log := by
  obtain ⟨earlier, current, before, k, last, hadvance, hparts, hhanded⟩ := h
  refine ⟨earlier, current, before, k, last, ?_, ?_, hhanded⟩
  · rw [law.packets_stop]
    exact hadvance.stop
  · rw [law.left_stop]
    exact hparts

end Lawful

/-- **The last word is all there is of debug messages**, and it is logged when
the packets come to their end. -/
theorem Delivered.countP_debug {O : Outlet ε σ α} {start s : σ} {handed : List α}
    {log : List LogEntry} (h : O.Delivered start s handed log) :
    log.countP (·.level = .debug) + (O.packets start).done.toNat = (O.packets s).done.toNat := by
  obtain ⟨earlier, current, before, k, last, hadvance, -, -⟩ := h
  rw [hadvance.tally.2.2, Nat.add_comm]
  exact hadvance.once

/-! ## Any number of calls -/

omit [Network.Slicer] in
/-- What every call preserves holds after any number of them. -/
theorem after_preserves (O : Outlet ε σ α) {P : σ → Prop}
    (hnext : ∀ s, P s → P (O.next s).stream) (hstop : ∀ s, P s → P (O.stop s)) {s : σ} (h : P s)
    (calls : List Call) : P (O.after s calls) := by
  induction calls generalizing s with
  | nil => exact h
  | cons call calls ih =>
    cases call with
    | next => exact ih (hnext s h)
    | stop => exact ih (hstop s h)

namespace Lawful

variable {O : Outlet ε σ α} {s start : σ} {handed : List α} {log : List LogEntry}

/-- What some calls deliver is delivered call by call. -/
theorem delivered_after (law : O.Lawful) (h : O.Delivered start s handed log) (calls : List Call) :
    O.Delivered start (O.after s calls) (handed ++ O.items s calls) (log ++ O.logged s calls) := by
  induction calls generalizing s handed log with
  | nil =>
    show O.Delivered start s (handed ++ []) (log ++ [])
    rw [List.append_nil, List.append_nil]
    exact h
  | cons call calls ih =>
    cases call with
    | next =>
      have hlater := ih (law.delivered_next h)
      rw [List.append_assoc, List.append_assoc] at hlater
      exact hlater
    | stop => exact ih (law.delivered_stop h)

/-- A stream that was told to stop stays stopped, leaves its feed alone and
hands over what is left. -/
theorem after_of_stopped (law : O.Lawful) (h : (O.packets s).stopped = true) (calls : List Call) :
    (O.packets (O.after s calls)).stopped = true ∧
      (O.packets (O.after s calls)).feed = (O.packets s).feed ∧
      O.left (O.after s calls) = (O.left s).drop (calls.count .next) := by
  induction calls generalizing s with
  | nil => exact ⟨h, rfl, rfl⟩
  | cons call calls ih =>
    cases call with
    | next =>
      obtain ⟨-, hleft, hstopped, hfeed⟩ := law.next_of_stopped h
      obtain ⟨hstopped', hfeed', hleft'⟩ := ih hstopped
      refine ⟨hstopped', hfeed'.trans hfeed, hleft'.trans ?_⟩
      rw [hleft, List.drop_tail, List.count_cons_self]
    | stop =>
      obtain ⟨hstopped', hfeed', hleft'⟩ := ih (law.stopped_stop s)
      rw [law.packets_stop] at hfeed'
      rw [law.left_stop] at hleft'
      refine ⟨hstopped', hfeed', hleft'.trans ?_⟩
      rw [List.count_cons_of_ne (by decide)]

/-- A request to stop is noted for good. -/
theorem stopped_after_of_mem (law : O.Lawful) {calls : List Call} (h : .stop ∈ calls) :
    (O.packets (O.after s calls)).stopped = true := by
  induction calls generalizing s with
  | nil => exact absurd h List.not_mem_nil
  | cons call calls ih =>
    cases call with
    | next => exact ih (List.mem_of_ne_of_mem (by decide) h)
    | stop => exact (law.after_of_stopped (law.stopped_stop s) calls).1

theorem sound_after (law : O.Lawful) (h : O.Sound s) (calls : List Call) :
    O.Sound (O.after s calls) :=
  O.after_preserves (P := O.Sound) (fun _ => law.sound_next) (fun _ => law.sound_stop) h calls

/-- The packets come to their end with the first call without an item, and in
no other way. -/
theorem done_after (law : O.Lawful) (h : O.Sound s) (calls : List Call) :
    (O.packets (O.after s calls)).done = ((O.packets s).done || O.ended s calls) := by
  induction calls generalizing s with
  | nil => exact (Bool.or_false _).symm
  | cons call calls ih =>
    cases call with
    | next =>
      refine (ih (law.sound_next h)).trans ?_
      show _ = ((O.packets s).done || ((O.next s).item.isNone || O.ended (O.next s).stream calls))
      rw [law.isNone_next h]
      cases hs : (O.packets s).done with
      | false => rw [Bool.false_or]
      | true =>
        rw [(law.next_of_done h hs).2.2, hs]
        rfl
    | stop =>
      have hdone := ih (law.sound_stop h)
      rw [law.packets_stop] at hdone
      exact hdone

/-- A stream that has come to its end leaves its feed alone. -/
theorem feed_after_of_done (law : O.Lawful) (h : O.Sound s) (hdone : (O.packets s).done = true)
    (calls : List Call) : (O.packets (O.after s calls)).feed = (O.packets s).feed := by
  refine (O.after_preserves (P := fun s' => O.Sound s' ∧ (O.packets s').done = true ∧
    (O.packets s').feed = (O.packets s).feed) ?_ ?_ ⟨h, hdone, rfl⟩ calls).2.2
  · intro s' ⟨hsound, hdone', hfeed⟩
    have hsame := (law.next_of_done hsound hdone').2.2
    rw [hsame]
    exact ⟨law.sound_next hsound, hdone', hfeed⟩
  · intro s' ⟨hsound, hdone', hfeed⟩
    rw [law.packets_stop]
    exact ⟨law.sound_stop hsound, hdone', hfeed⟩

/-- A stream that was told to stop runs out. -/
theorem runsOut_of_stopped (law : O.Lawful) (h : (O.packets s).stopped = true) : O.RunsOut s := by
  intro later
  obtain ⟨hstopped, hfeed, hleft⟩ := law.after_of_stopped h later
  refine ⟨hstopped, hfeed, ?_⟩
  rw [(law.next_of_stopped hstopped).1, hleft, List.getElem?_drop, Nat.add_zero]

/-- A stream that has come to its end is at rest. -/
theorem atRest_of_done (law : O.Lawful) (h : O.Sound s) (hdone : (O.packets s).done = true) :
    O.AtRest s := by
  intro later
  have hdone' := law.done_after h later
  rw [hdone, Bool.true_or] at hdone'
  obtain ⟨hitem, hlog, -⟩ := law.next_of_done (law.sound_after h later) hdone'
  exact ⟨law.feed_after_of_done h hdone later, hitem, hlog⟩

/-- **Stopping and ending are final** for every outlet that begins with nothing
handed over and nothing left. -/
theorem final (law : O.Lawful) (hdone : (O.packets start).done = false) (hleft : O.left start = [])
    (calls : List Call) : O.Final start calls := by
  have hbegin : O.Delivered start start [] [] :=
    ⟨[], none, [], 0, [], .refl (O.packets start), by rw [hleft]; rfl, rfl⟩
  have hdelivered := law.delivered_after hbegin calls
  have hsound := law.sound_after (fun _ => hleft) calls
  have hended := law.done_after (fun _ => hleft) calls
  rw [hdone, Bool.false_or] at hended
  -- The last word is logged by now if the end has come by now, and likewise
  -- after the next call.
  have hbefore := hdelivered.countP_debug
  have hafter := (law.delivered_next hdelivered).countP_debug
  rw [hdone, hended, Bool.toNat_false, Nat.add_zero] at hbefore
  rw [List.countP_append, hbefore, hdone, ← law.isNone_next hsound] at hafter
  refine ⟨law.stopped_after_of_mem, law.runsOut_of_stopped, hdelivered, ?_, ?_, ?_,
    law.pulls_next_le _⟩
  · intro hcalls
    exact law.atRest_of_done hsound (hended.trans hcalls)
  · cases hcalls : O.ended start calls with
    | false =>
      rw [hcalls] at hafter
      rw [Bool.not_false, Bool.and_true]
      exact (Nat.zero_add _).symm.trans (hafter.trans (Bool.cond_eq_ite ..))
    | true =>
      have hone := Bool.toNat_le (O.next (O.after start calls)).item.isNone
      rw [hcalls, Bool.toNat_true] at hafter
      rw [Bool.not_true, Bool.and_false, if_neg Bool.false_ne_true]
      omega
  · exact hbefore.trans (Bool.cond_eq_ite ..)

end Lawful
end Outlet

/-! ## The two kinds of streams -/

/-- A stream of packets hands over the items as they are, and nothing is left. -/
def PacketStream.outlet : Outlet ε (PacketStream ε) (Except ε Packet) where
  next := next
  stop := stop
  packets := id
  parts := fun item => [item]
  left := fun _ => []

/-- A stream of flows hands over the flows of the packets, and some may be left. -/
def FlowStream.outlet : Outlet ε (FlowStream ε) (Except ε Flow) where
  next := next
  stop := stop
  packets := packets
  parts := unfoldItem
  left := fun s => s.pending.map .ok

theorem PacketStream.lawful_outlet : (outlet (ε := ε)).Lawful where
  packets_stop := fun _ => rfl
  left_stop := fun _ => rfl
  next_cons := fun _ _ _ h => nomatch h
  next_nil := fun _ _ =>
    ⟨0, rfl, (List.flatMap_singleton' _).trans (List.append_nil _).symm, rfl, rfl,
      (List.append_nil _).symm⟩

namespace FlowStream

omit [Network.Slicer] in
/-- There is an item just when there was a last one to hand over from. -/
theorem Hands.isNone_eq {last : Option (Except ε Packet)} {item : Option (Except ε Flow)}
    {pending : List Flow} (h : Hands last item pending) : item.isNone = last.isNone := by
  cases h <;> rfl

theorem lawful_outlet : (outlet (ε := ε)).Lawful where
  packets_stop := fun _ => rfl
  left_stop := fun _ => rfl
  next_cons := by
    intro s item later h
    obtain ⟨flow, pending, hpending, rfl, rfl⟩ := List.map_eq_cons_iff.mp h
    show s.next.item = _ ∧ s.next.log = _ ∧ s.next.stream.packets = _ ∧
      s.next.stream.pending.map Except.ok = _
    rw [next_of_pending hpending]
    exact ⟨rfl, rfl, rfl, rfl⟩
  next_nil := by
    intro s h
    have hnil : s.pending = [] := List.map_eq_nil_iff.mp h
    obtain ⟨k, hturn⟩ := advance_outcome s.packets
    rw [← next_of_nil hnil] at hturn
    exact ⟨k, hturn.passed, hturn.hands.balance, hturn.hands.isNone_eq, hturn.reached, hturn.log⟩

/-- **Stopping and ending are final.** Take any script, and any calls in any
order. Once a stream was told to stop, it never pulls again: a stream of
packets yields nothing more, and a stream of flows the flows that are left of
its packet, one by one, and then nothing more. Once a call has brought no item,
no later call brings one, pulls or logs anything. The last word is logged by
the first such call, and never again. No call pulls more often than there are
unread events, and once more. -/
theorem ofFeed_final (settings : Settings) (script : List (Event ε)) (calls : List Call) :
    let packets := PacketStream.ofFeed settings (.ofEvents script)
    PacketStream.outlet.Final packets calls ∧ outlet.Final (ofPackets packets) calls :=
  ⟨PacketStream.lawful_outlet.final rfl rfl calls, lawful_outlet.final rfl rfl calls⟩

example : PacketStream.outlet.logged
    (.ofFeed Settings.initial (.ofEvents [.failure (), .timeout, .stopRequest, .failure ()]))
    [.next, .next, .stop, .next] = [.stopped] := rfl

end FlowStream

end FlowTelemetry

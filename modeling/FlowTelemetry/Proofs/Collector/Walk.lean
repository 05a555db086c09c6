import FlowTelemetry.Proofs.Collector.Outcome

/-!
# A packet stream walks through its script

A stream over a list of events should be nothing but a walk through that
list: up to the first event that ends it, each event yields its item, or
none, and is logged, or not. `Walk` is that reading of a list of events. It
knows nothing of loops, of flags, or of where one call ends and the next one
begins.

A stream that is under way has part of the walk behind it and part of it
ahead. Each turn hands over the next item and what is logged up to it, and
leaves the rest of the walk to the turns that follow. From this single step
`ofFeed_walk` follows by going through the calls one after the other: nothing
is lost, nothing comes twice, and nothing changes places.
-/

namespace FlowTelemetry

variable {ε : Type}

/-! ## The walk -/

namespace Walk

/-- The events before the first one that ends a stream. -/
def reached (script : List (Event ε)) : List (Event ε) := script.takeWhile fun e => !e.ends

/-- Why the walk ends: a stop is requested before the events are finished, or
it is not. -/
def ending (script : List (Event ε)) : LogEntry :=
  match script.find? Event.ends with
  | some .stopRequest => .stopped
  | _ => .finished

/-- The items of the events that are reached, in order. -/
def items [Network.Slicer] (detail : Detail) (script : List (Event ε)) : List (Except ε Packet) :=
  (reached script).filterMap (Event.item? detail)

/-- What is logged about the events that are reached, in order, and a last
word about the end. -/
def log [Network.Slicer] (detail : Detail) (script : List (Event ε)) : List LogEntry :=
  (reached script).filterMap (Event.report? detail) ++ [ending script]

variable {detail : Detail} {passed rest : List (Event ε)}

/-- Events that do not end the walk are reached, whatever follows. -/
theorem reached_append (h : ∀ e ∈ passed, e.ends = false) :
    reached (passed ++ rest) = passed ++ reached rest := by
  refine List.takeWhile_append_of_pos fun e he => ?_
  rw [h e he]
  rfl

/-- A walk through frames reaches all of them. -/
theorem reached_frames (frames : List Frame) :
    reached (frames.map (Event.frame : Frame → Event ε)) = frames.map .frame := by
  have hends : ∀ e ∈ frames.map (Event.frame : Frame → Event ε), e.ends = false := by
    intro e he
    obtain ⟨f, -, rfl⟩ := List.mem_map.mp he
    rfl
  rw [← List.append_nil (frames.map _), reached_append hends]
  rfl

/-- Nothing is reached from an event that ends the walk. -/
theorem reached_eq_nil (h : ∀ e ∈ rest.head?, e.ends = true) : reached rest = [] := by
  cases rest with
  | nil => rfl
  | cons e rest =>
    unfold reached
    rw [List.takeWhile_cons, h e rfl]
    rfl

/-- Events that do not end the walk have no part in why it ends. -/
theorem ending_append (h : ∀ e ∈ passed, e.ends = false) :
    ending (passed ++ rest) = ending rest := by
  have hnone : passed.find? Event.ends = none :=
    List.find?_eq_none.mpr fun e he => Bool.eq_false_iff.mp (h e he)
  unfold ending
  rw [List.find?_append, hnone, Option.none_or]

/-- A walk that goes no further ends for the reason that a stream gives. -/
theorem ending_eq_reason (h : ∀ e ∈ rest.head?, e.ends = true) :
    ending rest = PacketStream.reason rest := by
  cases rest with
  | nil => rfl
  | cons e rest =>
    unfold ending
    rw [List.find?_cons, h e rfl]
    cases e <;> rfl

variable [Network.Slicer]

/-- Events that are passed over have no items. -/
theorem items_passed (h : ∀ e ∈ passed, e.PassedOver detail) :
    passed.filterMap (Event.item? detail) = [] :=
  List.filterMap_eq_nil_iff.mpr fun e he => (h e he).itemless

/-- Events that are passed over do not end the walk. -/
theorem ends_passed (h : ∀ e ∈ passed, e.PassedOver detail) : ∀ e ∈ passed, e.ends = false :=
  fun e he => (h e he).goesOn

/-- An event that ends the walk yields nothing and is not logged. -/
theorem silent_of_ends {e : Event ε} (h : e.ends = true) :
    e.item? detail = none ∧ e.report? detail = none := by
  cases e with
  | frame f => exact absurd h Bool.false_ne_true
  | failure e => exact absurd h Bool.false_ne_true
  | timeout => exact absurd h Bool.false_ne_true
  | stopRequest => exact ⟨rfl, rfl⟩
  | finished => exact ⟨rfl, rfl⟩

/-- An event with an item does not end the walk. -/
theorem goesOn_of_item {e : Event ε} {item : Except ε Packet}
    (h : e.item? detail = some item) : e.ends = false := by
  rw [Bool.eq_false_iff]
  intro hends
  rw [(silent_of_ends hends).1] at h
  exact nomatch h

end Walk

variable [Network.Slicer]

/-! ## Accounting for frames -/

namespace Event

variable (detail : Detail)

/-- **Every frame is accounted for.** A frame is delivered, with a trace, or
dropped, with a warning; other events are neither. -/
theorem accounted (event : Event ε) :
    [event].countP isFrame
        = (event.item? detail).toList.countP Except.isOk
          + (event.report? detail).toList.countP (·.level = .warn) ∧
      (event.report? detail).toList.countP (·.level = .trace)
        = (event.item? detail).toList.countP Except.isOk ∧
      (event.report? detail).toList.countP (·.level = .debug) = 0 := by
  cases event with
  | frame f =>
    simp only [item?, report?]
    cases f.unwrap with
    | error e => exact ⟨rfl, rfl, rfl⟩
    | ok datagram =>
      simp only
      cases Packet.ofDatagram detail datagram with
      | error e => exact ⟨rfl, rfl, rfl⟩
      | ok packet => exact ⟨rfl, rfl, rfl⟩
  | failure e => exact ⟨rfl, rfl, rfl⟩
  | timeout => exact ⟨rfl, rfl, rfl⟩
  | stopRequest => exact ⟨rfl, rfl, rfl⟩
  | finished => exact ⟨rfl, rfl, rfl⟩

omit [Network.Slicer] in
/-- What is counted in the images of a list is counted event by event. -/
theorem countP_filterMap_cons {α : Type} (f : Event ε → Option α) (p : α → Bool)
    (event : Event ε) (events : List (Event ε)) :
    ((event :: events).filterMap f).countP p
      = (f event).toList.countP p + (events.filterMap f).countP p := by
  rw [← toList_append_filterMap, List.countP_append]

/-- **So are all frames**: as many of any events are frames as are delivered
or warned about, those delivered are traced, and none is a debug message. -/
theorem accounted_list (events : List (Event ε)) :
    events.countP isFrame
        = (events.filterMap (item? detail)).countP Except.isOk
          + (events.filterMap (report? detail)).countP (·.level = .warn) ∧
      (events.filterMap (report? detail)).countP (·.level = .trace)
        = (events.filterMap (item? detail)).countP Except.isOk ∧
      (events.filterMap (report? detail)).countP (·.level = .debug) = 0 := by
  induction events with
  | nil => exact ⟨rfl, rfl, rfl⟩
  | cons event events ih =>
    obtain ⟨hframe, htrace, hdebug⟩ := accounted detail event
    obtain ⟨hframes, htraces, hdebugs⟩ := ih
    simp only [countP_filterMap_cons]
    refine ⟨?_, ?_, ?_⟩
    · rw [← List.singleton_append, List.countP_append, hframe, hframes, Nat.add_add_add_comm]
    · rw [htrace, htraces]
    · rw [hdebug, hdebugs]

end Event

/-! ## One turn -/

namespace PacketStream

/-- The part of the walk that is still ahead of a stream: its items. -/
def ahead (s : PacketStream ε) : List (Except ε Packet) :=
  if s.done || s.stopped then [] else Walk.items s.settings.detail s.feed.unread

/-- The part of the walk that is still ahead of a stream: its log. -/
def logAhead (s : PacketStream ε) : List LogEntry :=
  if s.done then [] else if s.stopped then [.stopped]
  else Walk.log s.settings.detail s.feed.unread

variable {s : PacketStream ε} {turn : Turn (PacketStream ε) (Except ε Packet)}

namespace Outcome

/-- A turn hands over the next item and leaves the others. -/
theorem ahead_eq (h : Outcome s turn) : s.ahead = turn.item.toList ++ turn.stream.ahead := by
  cases h with
  | afterEnd hdone =>
    rfl
  | stopped hdone hstopped =>
    unfold ahead
    rw [hstopped, Bool.or_true]
    rfl
  | yielded hdone hstopped passed event unread hunread hpassed item hitem =>
    unfold ahead Walk.items
    simp only [hdone, hstopped, hunread, Bool.or_false, Bool.false_eq_true, if_false]
    rw [Walk.reached_append (Walk.ends_passed hpassed), List.filterMap_append,
      Walk.items_passed hpassed, List.nil_append, ← List.singleton_append (l := unread),
      Walk.reached_append (List.forall_mem_singleton.mpr (Walk.goesOn_of_item hitem)),
      List.singleton_append, List.filterMap_cons, hitem]
    rfl
  | ended hdone hstopped passed rest hunread hpassed hrest =>
    unfold ahead Walk.items
    simp only [hdone, hstopped, hunread, Bool.or_false, Bool.false_eq_true, if_false]
    rw [Walk.reached_append (Walk.ends_passed hpassed), Walk.reached_eq_nil hrest,
      List.append_nil, Walk.items_passed hpassed]
    rfl

/-- A turn logs what comes next and leaves the rest. -/
theorem logAhead_eq (h : Outcome s turn) : s.logAhead = turn.log ++ turn.stream.logAhead := by
  cases h with
  | afterEnd hdone => rfl
  | stopped hdone hstopped =>
    unfold logAhead
    rw [if_neg (Bool.eq_false_iff.mp hdone), if_pos hstopped]
    rfl
  | yielded hdone hstopped passed event unread hunread hpassed item hitem =>
    have hreached : ∀ e ∈ passed ++ [event], e.ends = false :=
      List.forall_mem_append.mpr ⟨Walk.ends_passed hpassed,
        List.forall_mem_singleton.mpr (Walk.goesOn_of_item hitem)⟩
    unfold logAhead Walk.log
    simp only [hdone, hstopped, hunread, Bool.false_eq_true, if_false]
    rw [List.append_cons passed event unread, Walk.reached_append hreached, List.filterMap_append,
      Walk.ending_append hreached, List.append_assoc]
  | ended hdone hstopped passed rest hunread hpassed hrest =>
    have hreached := Walk.ends_passed hpassed
    unfold logAhead Walk.log
    simp only [hdone, hstopped, hunread, Bool.false_eq_true, if_false, if_true]
    rw [Walk.reached_append hreached, Walk.reached_eq_nil hrest, List.append_nil,
      Walk.ending_append hreached, Walk.ending_eq_reason hrest, List.append_nil]

/-- A turn without an item, and no other, leaves a stream that has ended. -/
theorem done_stream (h : Outcome s turn) : turn.stream.done = turn.item.isNone := by
  cases h with
  | afterEnd hdone => exact hdone
  | stopped hdone hstopped => rfl
  | yielded hdone => exact hdone
  | ended => rfl

end Outcome

/-- **A stream gets from one state to another by pulling events.** What it
hands over and what it logs on the way are the items and the entries of these
events. A last word comes only from a stream that ends on the way, and an
ended stream pulls nothing. -/
structure Advance (s s' : PacketStream ε) (items : List (Except ε Packet))
    (log : List LogEntry) (k : Nat) (last : List LogEntry) : Prop where
  settings : s'.settings = s.settings
  feed : s'.feed = ⟨s.feed.unread.drop k, s.feed.pulls + k⟩
  items : items = (s.feed.unread.take k).filterMap (Event.item? s.settings.detail)
  log : log = (s.feed.unread.take k).filterMap (Event.report? s.settings.detail) ++ last
  debug : ∀ entry ∈ last, entry.level = .debug
  once : s.done.toNat + last.length = s'.done.toNat
  rests : s.done = true → k = 0

namespace Advance

/-- Without a turn nothing is pulled and nothing happens. -/
theorem refl (s : PacketStream ε) : Advance s s [] [] 0 [] where
  settings := rfl
  feed := rfl
  items := rfl
  log := rfl
  debug := fun _ h => absurd h List.not_mem_nil
  once := rfl
  rests := fun _ => rfl

/-- Events are pulled one stretch after the other. A last word in the first
stretch means that there are no events in the second. -/
theorem trans {s s' s'' : PacketStream ε} {items items' : List (Except ε Packet)}
    {log log' last last' : List LogEntry} {k k' : Nat}
    (h : Advance s s' items log k last) (h' : Advance s' s'' items' log' k' last') :
    Advance s s'' (items ++ items') (log ++ log') (k + k') (last ++ last') := by
  have hunread : s'.feed.unread = s.feed.unread.drop k := by rw [h.feed]
  have hitems := h'.items
  have hlog := h'.log
  rw [h.settings, hunread] at hitems hlog
  have hcomm : ∀ entries : List LogEntry, (s'.done = true → entries = []) →
      last ++ entries = entries ++ last := by
    intro entries hnone
    cases hs' : s'.done with
    | true => rw [hnone hs', List.append_nil, List.nil_append]
    | false =>
      have honce := h.once
      rw [hs', Bool.toNat_false] at honce
      rw [List.eq_nil_of_length_eq_zero (Nat.eq_zero_of_add_eq_zero_left honce),
        List.nil_append, List.append_nil]
  refine ⟨h'.settings.trans h.settings, ?_, ?_, ?_, ?_, ?_, ?_⟩
  · rw [h'.feed, h.feed, List.drop_drop, Nat.add_assoc]
  · rw [List.take_add, List.filterMap_append, ← h.items, ← hitems]
  · rw [h.log, hlog, List.take_add, List.filterMap_append, List.append_assoc, List.append_assoc,
      ← List.append_assoc last, hcomm _ fun hs' => ?_, List.append_assoc]
    rw [h'.rests hs', List.take_zero, List.filterMap_nil]
  · exact List.forall_mem_append.mpr ⟨h.debug, h'.debug⟩
  · rw [List.length_append, ← Nat.add_assoc, h.once, h'.once]
  · intro hs
    have hs' : s'.done = true := by
      have honce := h.once
      rw [hs, Bool.toNat_true] at honce
      cases hs' : s'.done with
      | true => rfl
      | false =>
        rw [hs', Bool.toNat_false] at honce
        exact absurd honce (Nat.succ_add 0 _ ▸ Nat.succ_ne_zero _)
    rw [h.rests hs, h'.rests hs']

/-- **Frames are accounted for on the way.** Each frame that is pulled is
delivered or warned about, those delivered are traced, and the last word is
all there is of debug messages. -/
theorem tally {s s' : PacketStream ε} {items : List (Except ε Packet)}
    {log last : List LogEntry} {k : Nat} (h : Advance s s' items log k last) :
    (s.feed.unread.take k).countP Event.isFrame
        = items.countP Except.isOk + log.countP (·.level = .warn) ∧
      log.countP (·.level = .trace) = items.countP Except.isOk ∧
      log.countP (·.level = .debug) = last.length := by
  have hother : ∀ level : LogLevel, level ≠ .debug → last.countP (·.level = level) = 0 := by
    intro level hlevel
    refine List.countP_eq_zero.mpr fun entry hentry hequal => hlevel ?_
    rw [← of_decide_eq_true hequal, h.debug entry hentry]
  obtain ⟨hframes, htraces, hdebugs⟩ :=
    Event.accounted_list s.settings.detail (s.feed.unread.take k)
  rw [h.items, h.log, List.countP_append, List.countP_append, List.countP_append,
    hother .warn (fun h => nomatch h), hother .trace (fun h => nomatch h), Nat.add_zero,
    Nat.add_zero, hdebugs, Nat.zero_add]
  refine ⟨hframes, htraces, ?_⟩
  exact List.countP_eq_length.mpr fun entry hentry => decide_eq_true (h.debug entry hentry)

end Advance

/-- One turn pulls the events it goes past and the one it stops at. -/
theorem Outcome.advance (h : Outcome s turn) :
    ∃ k last, Advance s turn.stream turn.item.toList turn.log k last := by
  cases h with
  | afterEnd hdone => exact ⟨0, [], .refl s⟩
  | stopped hdone hstopped =>
    refine ⟨0, [.stopped], rfl, rfl, rfl, rfl, fun _ h => ?_, ?_, fun _ => rfl⟩
    · rw [List.mem_singleton.mp h]
      rfl
    · rw [hdone]
      rfl
  | yielded hdone hstopped passed event unread hunread hpassed item hitem =>
    have htake : s.feed.unread.take (passed.length + 1) = passed ++ [event] := by
      rw [hunread, List.take_length_add_append]
      rfl
    have hitems : (passed ++ [event]).filterMap (Event.item? s.settings.detail) = [item] := by
      rw [List.filterMap_append, Walk.items_passed hpassed, List.nil_append,
        List.filterMap_cons, hitem]
      rfl
    refine ⟨passed.length + 1, [], rfl, ?_, ?_, ?_, fun _ h => absurd h List.not_mem_nil, rfl,
      fun h => absurd (hdone.symm.trans h) Bool.false_ne_true⟩
    · rw [hunread, List.drop_length_add_append]
      rfl
    · rw [htake, hitems]
      rfl
    · rw [htake, List.append_nil]
  | ended hdone hstopped passed rest hunread hpassed hrest =>
    have htake : s.feed.unread.take (passed.length + 1) = passed ++ rest.take 1 := by
      rw [hunread, List.take_length_add_append]
    have hsilent : ∀ e ∈ rest.take 1, e.ends = true := by
      intro e he
      cases rest with
      | nil => exact absurd he List.not_mem_nil
      | cons e' rest =>
        rw [List.mem_singleton.mp he]
        exact hrest e' rfl
    refine ⟨passed.length + 1, [reason rest], rfl, ?_, ?_, ?_, fun _ h => ?_, ?_,
      fun h => absurd (hdone.symm.trans h) Bool.false_ne_true⟩
    · rw [hunread, List.drop_length_add_append, List.drop_one]
    · rw [htake, List.filterMap_append, Walk.items_passed hpassed,
        List.filterMap_eq_nil_iff.mpr fun e he => (Walk.silent_of_ends (hsilent e he)).1]
      rfl
    · rw [htake, List.filterMap_append,
        List.filterMap_eq_nil_iff.mpr fun e he => (Walk.silent_of_ends (hsilent e he)).2,
        List.append_nil]
    · rw [List.mem_singleton.mp h]
      unfold reason
      split <;> rfl
    · rw [hdone]
      rfl

/-! ## Any number of turns -/

/-- The stream after a number of turns. -/
def after (s : PacketStream ε) : Nat → PacketStream ε
  | 0 => s
  | n + 1 => s.next.stream.after n

/-- The items of that many turns, in order. -/
def yielded (s : PacketStream ε) : Nat → List (Except ε Packet)
  | 0 => []
  | n + 1 => s.next.item.toList ++ s.next.stream.yielded n

/-- What is logged in that many turns, in order. -/
def logged (s : PacketStream ε) : Nat → List LogEntry
  | 0 => []
  | n + 1 => s.next.log ++ s.next.stream.logged n

/-- Any number of turns is made of the events they pull. -/
theorem advance_after (s : PacketStream ε) (n : Nat) :
    ∃ k last, Advance s (s.after n) (s.yielded n) (s.logged n) k last := by
  induction n generalizing s with
  | zero => exact ⟨0, [], .refl s⟩
  | succ n ih =>
    obtain ⟨k, last, hfirst⟩ := (next_outcome s).advance
    obtain ⟨k', last', hlater⟩ := ih s.next.stream
    exact ⟨k + k', last ++ last', hfirst.trans hlater⟩

/-- A stream that has ended stays as it is. -/
theorem after_of_done (h : s.done = true) (n : Nat) : s.after n = s := by
  induction n with
  | zero => rfl
  | succ n ih =>
    have hnext : s.next.stream = s := by
      unfold next
      rw [if_pos h]
    unfold after
    rw [hnext, ih]

/-- A stream that has ended has nothing ahead. -/
theorem ahead_of_done (h : s.done = true) : s.ahead = [] := by
  unfold ahead
  rw [h]
  rfl

/-- A turn without an item has nothing ahead, before it and after it. -/
theorem ahead_of_item_eq_none (h : s.next.item = none) :
    s.ahead = [] ∧ s.next.stream.ahead = [] := by
  have hdone := (next_outcome s).done_stream
  have hahead := (next_outcome s).ahead_eq
  rw [h] at hdone hahead
  rw [ahead_of_done hdone] at hahead
  exact ⟨hahead, ahead_of_done hdone⟩

/-- A turn with an item hands over the first one ahead. -/
theorem ahead_of_item_eq_some {item : Except ε Packet} (h : s.next.item = some item) :
    s.ahead = item :: s.next.stream.ahead := by
  have hahead := (next_outcome s).ahead_eq
  rw [h] at hahead
  exact hahead

/-- **The items of the turns are those ahead, one by one.** -/
theorem item_after (s : PacketStream ε) (n : Nat) : (s.after n).next.item = s.ahead[n]? := by
  induction n generalizing s with
  | zero =>
    show s.next.item = _
    cases h : s.next.item with
    | none => rw [(ahead_of_item_eq_none h).1]; rfl
    | some item => rw [ahead_of_item_eq_some h]; rfl
  | succ n ih =>
    show (s.next.stream.after n).next.item = _
    rw [ih]
    cases h : s.next.item with
    | none => rw [(ahead_of_item_eq_none h).1, (ahead_of_item_eq_none h).2]; rfl
    | some item => rw [ahead_of_item_eq_some h]; rfl

/-- The items of some turns are as many of those ahead. -/
theorem yielded_eq_take (s : PacketStream ε) (n : Nat) : s.yielded n = s.ahead.take n := by
  induction n generalizing s with
  | zero => rfl
  | succ n ih =>
    show s.next.item.toList ++ s.next.stream.yielded n = _
    rw [ih]
    cases h : s.next.item with
    | none =>
      rw [(ahead_of_item_eq_none h).1, (ahead_of_item_eq_none h).2, List.take_nil, List.take_nil]
      rfl
    | some item => rw [ahead_of_item_eq_some h]; rfl

/-- What some turns log is the beginning of what is ahead. -/
theorem logged_append (s : PacketStream ε) (n : Nat) :
    s.logged n ++ (s.after n).logAhead = s.logAhead := by
  induction n generalizing s with
  | zero => rfl
  | succ n ih =>
    show s.next.log ++ s.next.stream.logged n ++ (s.next.stream.after n).logAhead = _
    rw [List.append_assoc, ih]
    exact (next_outcome s).logAhead_eq.symm

/-- Once a stream has ended, all that was ahead is logged. -/
theorem logged_of_done {n : Nat} (h : (s.after n).done = true) : s.logged n = s.logAhead := by
  have hnone : (s.after n).logAhead = [] := by
    unfold logAhead
    rw [h]
    rfl
  rw [← List.append_nil (s.logged n), ← hnone]
  exact logged_append s n

/-- A stream has ended once it was asked more often than there are items. -/
theorem done_after (h : s.done = false) (n : Nat) :
    (s.after n).done = decide (s.ahead.length < n) := by
  induction n generalizing s with
  | zero => exact h
  | succ n ih =>
    show (s.next.stream.after n).done = _
    have hdone := (next_outcome s).done_stream
    cases hitem : s.next.item with
    | none =>
      rw [hitem] at hdone
      rw [after_of_done hdone, hdone, (ahead_of_item_eq_none hitem).1]
      exact (decide_eq_true n.succ_pos).symm
    | some item =>
      rw [hitem] at hdone
      rw [ih hdone, ahead_of_item_eq_some hitem, List.length_cons]
      exact decide_eq_decide.mpr Nat.succ_lt_succ_iff.symm

/-- **A stream over a script is a walk through it.** However often it is
asked, the items are those of the walk, in order, and then there are none. At
any time the script is what was pulled and what is unread, and the log holds
the entries of what was pulled; once the stream has ended it is the log of the
walk. Every frame that was pulled has been delivered, with a trace, or
dropped, with a warning; the one debug message is the last word. -/
theorem ofFeed_walk (settings : Settings) (script : List (Event ε)) (n : Nat) :
    let s := ofFeed settings (.ofEvents script)
    let items := Walk.items settings.detail script
    let pulled := script.take (s.after n).feed.pulls
    (s.after n).next.item = items[n]? ∧
      s.yielded n = items.take n ∧
      script = pulled ++ (s.after n).feed.unread ∧
      (items.length < n → s.logged n = Walk.log settings.detail script) ∧
      s.logged n = pulled.filterMap (Event.report? settings.detail)
        ++ (if items.length < n then [Walk.ending script] else []) ∧
      pulled.countP Event.isFrame
        = (s.yielded n).countP Except.isOk + (s.logged n).countP (·.level = .warn) ∧
      (s.logged n).countP (·.level = .trace) = (s.yielded n).countP Except.isOk ∧
      (s.logged n).countP (·.level = .debug) = if items.length < n then 1 else 0 := by
  intro s items pulled
  have hdone : (s.after n).done = decide (items.length < n) := done_after rfl n
  obtain ⟨k, last, hadvance⟩ := advance_after s n
  have hpulled : s.feed.unread.take k = pulled := by
    show script.take k = script.take (s.after n).feed.pulls
    rw [hadvance.feed]
    exact congrArg script.take (Nat.zero_add k).symm
  obtain ⟨hframes, htraces, hdebugs⟩ := hadvance.tally
  have hlog : s.logged n = pulled.filterMap (Event.report? settings.detail) ++ last := by
    rw [← hpulled]
    exact hadvance.log
  have honce := hadvance.once
  rw [hpulled] at hframes
  rw [hdone, show s.done.toNat = 0 from rfl, Nat.zero_add] at honce
  have hwhole : items.length < n → s.logged n = Walk.log settings.detail script := by
    intro h
    exact logged_of_done (hdone.trans (decide_eq_true h))
  refine ⟨item_after s n, yielded_eq_take s n, ?_, hwhole, ?_, hframes, htraces, ?_⟩
  · rw [← hpulled, hadvance.feed]
    exact (List.take_append_drop k script).symm
  · rw [hlog]
    by_cases h : items.length < n
    · rw [decide_eq_true h] at honce
      have hsame := (hwhole h).symm.trans hlog
      unfold Walk.log at hsame
      rw [if_pos h, List.append_inj_right' hsame honce.symm]
    · rw [decide_eq_false h] at honce
      rw [if_neg h, List.eq_nil_of_length_eq_zero honce]
  · rw [hdebugs, honce]
    by_cases h : items.length < n
    · rw [if_pos h, decide_eq_true h]
      rfl
    · rw [if_neg h, decide_eq_false h]
      rfl

end PacketStream

end FlowTelemetry

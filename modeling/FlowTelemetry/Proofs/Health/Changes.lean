import FlowTelemetry.Proofs.Health.Reconciliation
import FlowTelemetry.Proofs.Health.Tracking

/-!
# Changes of counters add up

What a sender has counted since it was first heard of is never computed from
its first snapshot, which is not kept. It is a sum of changes, one for each
snapshot, and the counters may have begun anew in any of them. The sum is
nevertheless the difference between the last snapshot and the first one,
because a snapshot that one change ends with is the one that the next change
begins with (`CounterState.Telescopes.update`).

This has a consequence for words of fixed length. A sum of many terms could
leave any range, but a difference of two counters cannot leave the range of
one counter, below zero or above. So there is no run, however long, in which
an addition overflows.

Statements are made of one `Counter` at a time. The sampling rate is not among
the counters, so nothing that is said here depends on it.
-/

namespace FlowTelemetry

/-- What is counted. -/
inductive Counter where
  | captured
  | received
  | dropped
  | interfaceDropped
  deriving DecidableEq, Repr

/-- The number that a snapshot has for a counter. -/
def Snapshot.count (s : Snapshot) : Counter → Nat
  | .captured => s.captured.toNat
  | .received => s.received.toNat
  | .dropped => s.dropped.toNat
  | .interfaceDropped => s.interfaceDropped.toNat

theorem Snapshot.count_lt (s : Snapshot) (k : Counter) : s.count k < 2 ^ 32 := by
  cases k
  · exact s.captured.toNat_lt
  · exact s.received.toNat_lt
  · exact s.dropped.toNat_lt
  · exact s.interfaceDropped.toNat_lt

namespace CounterChange

/-- The change of a counter. -/
def amount (x : CounterChange) : Counter → Int
  | .captured => x.captured
  | .received => x.received
  | .dropped => x.dropped
  | .interfaceDropped => x.interfaceDropped

theorem amount_zero (k : Counter) : zero.amount k = 0 := by
  cases k <;> rfl

theorem amount_between (x y : Snapshot) (k : Counter) :
    (between x y).amount k = (y.count k : Int) - x.count k := by
  cases k <;> rfl

/-- No counter has changed by more than what fits into it. -/
def Bounded (x : CounterChange) : Prop :=
  ∀ k, -(2 ^ 32 - 1) ≤ x.amount k ∧ x.amount k ≤ 2 ^ 32 - 1

theorem bounded_between (x y : Snapshot) : (between x y).Bounded := by
  intro k
  have hx := x.count_lt k
  have hy := y.count_lt k
  rw [amount_between]
  omega

/-- The change, if words of 64 bits can hold it. -/
def words? (x : CounterChange) : Option CounterChange := do
  let captured ← Word.signed? x.captured
  let received ← Word.signed? x.received
  let dropped ← Word.signed? x.dropped
  let interfaceDropped ← Word.signed? x.interfaceDropped
  return { captured, received, dropped, interfaceDropped }

theorem Bounded.words?_eq_some {x : CounterChange} (h : x.Bounded) : x.words? = some x := by
  have hfits : ∀ k, Word.signed? (x.amount k) = some (x.amount k) := by
    intro k
    obtain ⟨hlow, hhigh⟩ := h k
    exact Word.signed?_eq_some (by omega) (by omega)
  have hcaptured : Word.signed? x.captured = some x.captured := hfits .captured
  have hreceived : Word.signed? x.received = some x.received := hfits .received
  have hdropped : Word.signed? x.dropped = some x.dropped := hfits .dropped
  have hinterface : Word.signed? x.interfaceDropped = some x.interfaceDropped :=
    hfits .interfaceDropped
  unfold words?
  rw [hcaptured, hreceived, hdropped, hinterface]
  rfl

end CounterChange

/-! ## Snapshots of one sender -/

namespace CounterState

/-- Takes note of one snapshot after the other. -/
def run (c : CounterState) (ss : List Snapshot) : CounterState := ss.foldl update c

/-- Takes note of another snapshot, in words of 64 bits. There is a result only
if none of the operations leaves the range of its words. -/
def updateWords? (c : CounterState) (s : Snapshot) : Option CounterState := do
  let change ← (CounterChange.between c.last s).words?
  let total ← (c.sinceFirst + change).words?
  return ⟨s, change, total⟩

/-- Takes note of one snapshot after the other, in words of 64 bits. -/
def runWords? (c : CounterState) (ss : List Snapshot) : Option CounterState :=
  ss.foldlM updateWords? c

/-- **The changes so far add up** to the one from the first snapshot to the
last. -/
structure Telescopes (first : Snapshot) (c : CounterState) : Prop where
  total : c.sinceFirst = .between first c.last
  /-- The latest change is one between snapshots too. -/
  step : ∃ before, c.sinceLast = .between before c.last

namespace Telescopes

variable {first : Snapshot} {c : CounterState}

theorem single (first : Snapshot) : (ofSnapshot first).Telescopes first where
  total := (CounterChange.between_self first).symm
  step := ⟨first, (CounterChange.between_self first).symm⟩

/-- **One more snapshot.** The change to it begins where the changes so far
end. -/
theorem update (h : c.Telescopes first) (s : Snapshot) : (c.update s).Telescopes first where
  total := by
    show c.sinceFirst + .between c.last s = .between first s
    rw [h.total, CounterChange.between_add_between]
  step := ⟨c.last, rfl⟩

theorem run (h : c.Telescopes first) (ss : List Snapshot) : (c.run ss).Telescopes first := by
  induction ss generalizing c with
  | nil => exact h
  | cons s ss ih => exact ih (h.update s)

theorem bounded (h : c.Telescopes first) : c.sinceFirst.Bounded ∧ c.sinceLast.Bounded := by
  obtain ⟨before, hstep⟩ := h.step
  rw [h.total, hstep]
  exact ⟨CounterChange.bounded_between _ _, CounterChange.bounded_between _ _⟩

/-- A snapshot is noted in words as it is without them. -/
theorem updateWords?_eq_some (h : c.Telescopes first) (s : Snapshot) :
    c.updateWords? s = some (c.update s) := by
  obtain ⟨htotal, hstep⟩ := (h.update s).bounded
  have hstep' : (CounterChange.between c.last s).words? = some (.between c.last s) :=
    hstep.words?_eq_some
  have htotal' : (c.sinceFirst + .between c.last s).words?
      = some (c.sinceFirst + .between c.last s) := htotal.words?_eq_some
  unfold updateWords?
  rw [hstep', Option.bind_eq_bind, Option.bind_some, htotal']
  rfl

/-- **No operation leaves its range**, in a run of any length. -/
theorem runWords?_eq_some (h : c.Telescopes first) (ss : List Snapshot) :
    c.runWords? ss = some (c.run ss) :=
  Word.foldlM_eq_some fun front s _ => (h.run front).updateWords?_eq_some s

end Telescopes

theorem run_append (c : CounterState) (ss : List Snapshot) (s : Snapshot) :
    c.run (ss ++ [s]) = (c.run ss).update s :=
  List.foldl_append

/-- The snapshot that is kept is the latest one. -/
theorem last_run (c : CounterState) (ss : List Snapshot) :
    (c.run ss).last = ss.getLast?.getD c.last := by
  induction ss using List.reverseRecOn with
  | nil => rfl
  | append_singleton ss s _ =>
    rw [run_append, List.getLast?_concat]
    rfl

/-- The latest change is the one between the last two snapshots. -/
theorem sinceLast_run {first before last : Snapshot} {rest front : List Snapshot}
    (h : first :: rest = front ++ [before, last]) :
    ((ofSnapshot first).run rest).sinceLast = .between before last := by
  cases front with
  | nil =>
    obtain ⟨rfl, rfl⟩ := List.cons.inj h
    rfl
  | cons first' front =>
    obtain ⟨rfl, hrest⟩ := List.cons.inj h
    have hrest' : rest = front ++ [before] ++ [last] :=
      hrest.trans (List.append_cons front before _)
    rw [hrest', run_append]
    show CounterChange.between ((ofSnapshot first).run (front ++ [before])).last last = _
    rw [last_run, List.getLast?_concat, Option.getD_some]

/-- The state after snapshots, from the one before them. -/
def resume : Option CounterState → List Snapshot → Option CounterState
  | some c, ss => some (c.run ss)
  | none, [] => none
  | none, first :: rest => some ((ofSnapshot first).run rest)

/-- Whatever is known after some snapshots, it adds up. -/
theorem telescopes_of_resume {ss : List Snapshot} {c : CounterState}
    (h : resume none ss = some c) : ∃ first, c.Telescopes first := by
  cases ss with
  | nil => exact nomatch h
  | cons first rest =>
    obtain rfl := Option.some.inj h
    exact ⟨first, (Telescopes.single first).run rest⟩

end CounterState

/-! ## Packets of one sender -/

namespace SourceState

/-- **What is known of the counters** comes from the snapshots alone, in the
order in which they came. -/
theorem counters_run (s : SourceState) (ps : List Packet) :
    (s.run ps).counters = CounterState.resume s.counters (ps.filterMap Packet.snapshot?) := by
  induction ps generalizing s with
  | nil => cases h : s.counters <;> exact h
  | cons p ps ih =>
    rw [run_cons, ih, List.filterMap_cons]
    unfold update updateBody Packet.snapshot?
    cases p.message.body with
    | stats snapshot => cases s.counters <;> rfl
    | records records => rfl

end SourceState

namespace Tracker

/-- The snapshots of one sender, in the order in which they came. -/
def snapshots (source : Endpoint) (ps : List Packet) : List Snapshot :=
  (own source ps).filterMap Packet.snapshot?

/-- What a tracker knows of the counters of a sender. -/
def counters? (t : Tracker) (source : Endpoint) : Option CounterState :=
  (t.get? source).bind (·.counters)

theorem counters?_run_empty (ps : List Packet) (source : Endpoint) :
    (empty.run ps).counters? source = CounterState.resume none (snapshots source ps) := by
  unfold counters? snapshots
  rw [get?_run_empty]
  cases own source ps with
  | nil => rfl
  | cons p ps => exact SourceState.counters_run (.initial p.timestamp) (p :: ps)

/-- Whatever is known of the counters of a sender, it adds up. -/
theorem telescopes_of_counters? {ps : List Packet} {source : Endpoint} {c : CounterState}
    (h : (empty.run ps).counters? source = some c) : ∃ first, c.Telescopes first := by
  rw [counters?_run_empty] at h
  exact CounterState.telescopes_of_resume h

/-- **Changes of counters add up.** Once a sender has sent a snapshot, what is
known of its counters is the latest snapshot, the change of each counter from
the first snapshot to the latest, and its change from the one before the latest,
where a single snapshot has not changed. Packets with records and packets of
others make no difference, and neither do sampling rates. No change ever
exceeds what a counter can hold, so that in words of 64 bits no operation leaves
its range, however many snapshots there are. -/
theorem counters_run_telescope {ps : List Packet} {source : Endpoint} {first : Snapshot}
    {rest : List Snapshot} (h : snapshots source ps = first :: rest) :
    (∃ c, (empty.run ps).counters? source = some c ∧
        (first :: rest).getLast? = some c.last ∧
        (∀ k, c.sinceFirst.amount k = (c.last.count k : Int) - first.count k) ∧
        (∀ front before last, first :: rest = front ++ [before, last] →
          ∀ k, c.sinceLast.amount k = (last.count k : Int) - before.count k) ∧
        (rest = [] → ∀ k, c.sinceFirst.amount k = 0 ∧ c.sinceLast.amount k = 0) ∧
        (CounterState.ofSnapshot first).runWords? rest = some c) ∧
      ∀ n, ∀ c ∈ (empty.run (ps.take n)).counters? source,
        c.sinceFirst.Bounded ∧ c.sinceLast.Bounded := by
  have hsingle := CounterState.Telescopes.single first
  have hrun := hsingle.run rest
  constructor
  · refine ⟨(CounterState.ofSnapshot first).run rest, ?_, ?_, ?_, ?_, ?_, ?_⟩
    · rw [counters?_run_empty, h]
      rfl
    · rw [CounterState.last_run, List.getLast?_cons]
      rfl
    · intro k
      rw [hrun.total, CounterChange.amount_between]
    · intro front before last hss k
      rw [CounterState.sinceLast_run hss, CounterChange.amount_between]
    · rintro rfl k
      exact ⟨CounterChange.amount_zero k, CounterChange.amount_zero k⟩
    · exact hsingle.runWords?_eq_some rest
  · intro n c hc
    obtain ⟨_, htelescopes⟩ := telescopes_of_counters? hc
    exact htelescopes.bounded

/-- A sender that counts, is restarted, and counts again, with records sent
in between and another sender at the same time. -/
def restarted : List Packet :=
  let sender : Endpoint := ⟨⟨192, 0, 2, 7⟩, 4000⟩
  [⟨⟨0, 0⟩, sender, .ofSnapshot .v2 1 ⟨100, 100, 0, 0, some 1⟩⟩,
    ⟨⟨1, 0⟩, .unspecified, .ofSnapshot .v1 7 ⟨9, 9, 9, 9, none⟩⟩,
    ⟨⟨2, 0⟩, sender, .ofSnapshot .v2 2 ⟨250, 240, 5, 0, some 8⟩⟩,
    ⟨⟨3, 0⟩, sender, ⟨⟨.v1, 1, .none, 3⟩, .records [⟨⟨10, 0, 0, 1⟩, ["a"], []⟩]⟩⟩,
    ⟨⟨4, 0⟩, sender, .ofSnapshot .v2 4 ⟨50, 50, 0, 0, some 1⟩⟩]

/-- The restart takes back more than was counted before it. -/
theorem counters_run_telescope_restarted :
    snapshots ⟨⟨192, 0, 2, 7⟩, 4000⟩ restarted
        = [⟨100, 100, 0, 0, some 1⟩, ⟨250, 240, 5, 0, some 8⟩, ⟨50, 50, 0, 0, some 1⟩] ∧
      ∃ c, (empty.run restarted).counters? ⟨⟨192, 0, 2, 7⟩, 4000⟩ = some c ∧
        c.last = ⟨50, 50, 0, 0, some 1⟩ ∧ c.sinceFirst.amount .captured = -50 ∧
        c.sinceLast.amount .captured = -200 := by
  have hsnapshots : snapshots ⟨⟨192, 0, 2, 7⟩, 4000⟩ restarted
      = [⟨100, 100, 0, 0, some 1⟩, ⟨250, 240, 5, 0, some 8⟩, ⟨50, 50, 0, 0, some 1⟩] := by decide
  obtain ⟨⟨c, hc, hlast, htotal, hstep, -, -⟩, -⟩ := counters_run_telescope hsnapshots
  have hlast' : c.last = ⟨50, 50, 0, 0, some 1⟩ := (Option.some.inj hlast).symm
  refine ⟨hsnapshots, c, hc, hlast', ?_, hstep [_] _ _ rfl .captured⟩
  rw [htotal, hlast']
  decide

end Tracker

end FlowTelemetry

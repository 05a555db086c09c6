import FlowTelemetry.Health.Summary
import FlowTelemetry.Proofs.Health.Tracking
import FlowTelemetry.Proofs.Time.Seconds
import Mathlib.Data.Prod.Basic

/-!
# Summaries of all senders

The senders of a tracker have no order that means anything, and its summaries
do: they are sorted. For a list that is sorted by something in which no two
entries agree, there is nothing more to know than what is in it. Here that is
the summary of each sender, by `mem_summaries_iff`, and so the list depends on
the states alone and not on how the tracker came by them.

The durations in the summaries are counted from the packet that came first to
the one that came last. Nothing makes these the earliest and the latest, so a
duration may well be negative, and there are rates only if it is not. They are
quotients by a number of seconds that is then positive (`Reports`).
-/

namespace FlowTelemetry

/-! ## The order of endpoints -/

/-- **The order of endpoints**: by the octets of the address, of which the
first one that differs decides, and by port among equal addresses. -/
def Endpoint.Before (x y : Endpoint) : Prop :=
  Prod.Lex (· < ·) (· < ·) (x.address.octets, x.port) (y.address.octets, y.port)

/-- In a number that is written in some base, the last digit decides only
among numbers that have the others in common. -/
theorem lt_or_eq_and_lt_iff {base a b m n : Nat} (hm : m < base) (hn : n < base) :
    a < b ∨ a = b ∧ m < n ↔ a * base + m < b * base + n := by
  rcases Nat.lt_trichotomy a b with hlt | rfl | hgt
  · have hmul := Nat.mul_le_mul_right base (Nat.succ_le_of_lt hlt)
    rw [Nat.succ_mul] at hmul
    exact iff_of_true (Or.inl hlt) (by omega)
  · rw [or_iff_right (Nat.lt_irrefl a), and_iff_right rfl, Nat.add_lt_add_iff_left]
  · have hmul := Nat.mul_le_mul_right base (Nat.succ_le_of_lt hgt)
    rw [Nat.succ_mul] at hmul
    exact iff_of_false (by omega) (by omega)

theorem Address.octets_lt_iff {x y : Address} : x.octets < y.octets ↔ x.rank < y.rank := by
  have := x.b.toNat_lt
  have := x.c.toNat_lt
  have := x.d.toNat_lt
  have := y.b.toNat_lt
  have := y.c.toNat_lt
  have := y.d.toNat_lt
  unfold octets rank
  simp only [List.cons_lt_cons_iff, UInt8.lt_iff_toNat_lt, ← UInt8.toNat_inj, List.lt_irrefl,
    and_false, or_false]
  rw [@lt_or_eq_and_lt_iff 0x100 _ _ _ _ (by omega) (by omega),
    @lt_or_eq_and_lt_iff 0x10000 _ _ _ _ (by omega) (by omega),
    @lt_or_eq_and_lt_iff 0x1000000 _ _ _ _ (by omega) (by omega)]
  omega

/-- Addresses are told apart by their octets. -/
theorem Address.octets_eq_iff {x y : Address} : x.octets = y.octets ↔ x.rank = y.rank := by
  refine ⟨fun h => ?_, fun h => congrArg octets (rank_inj h)⟩
  cases x
  cases y
  injection h with ha h
  injection h with hb h
  injection h with hc h
  injection h with hd h
  subst ha hb hc hd
  rfl

/-- The order is the one of a single number for each endpoint. -/
theorem Endpoint.before_iff {x y : Endpoint} : x.Before y ↔ x.rank < y.rank := by
  unfold Before rank
  rw [Prod.lex_def, Address.octets_lt_iff, Address.octets_eq_iff, UInt16.lt_iff_toNat_lt]
  exact lt_or_eq_and_lt_iff x.port.toNat_lt y.port.toNat_lt

namespace Tracker

/-! ## What is in the list -/

/-- In a tracker that has each key once, the state of a sender is the one in
its entry. -/
theorem get?_eq_some_iff {t : Tracker} (h : t.keys.Nodup) {source : Endpoint}
    {state : SourceState} : t.get? source = some state ↔ (source, state) ∈ t.sources := by
  obtain ⟨sources⟩ := t
  show sources.lookup source = some state ↔ (source, state) ∈ sources
  replace h : (sources.map Prod.fst).Nodup := h
  induction sources with
  | nil => exact iff_of_false (fun h => nomatch h) List.not_mem_nil
  | cons entry rest ih =>
    obtain ⟨hentry, hrest⟩ := List.nodup_cons.mp h
    rw [lookup_cons_ite, List.mem_cons]
    by_cases hsource : entry.1 = source
    · have hnotin : (source, state) ∉ rest := fun hmem =>
        hentry (hsource ▸ List.mem_map_of_mem hmem)
      rw [if_pos hsource, or_iff_left hnotin, Option.some_inj, Prod.ext_iff,
        and_iff_right hsource.symm]
      exact eq_comm
    · rw [if_neg hsource, or_iff_right fun heq => hsource (congrArg Prod.fst heq).symm]
      exact ih hrest

/-- **The summaries are those that are given one at a time.** -/
theorem mem_summaries_iff {t : Tracker} (h : t.keys.Nodup) {x : Summary} :
    x ∈ t.summaries ↔ t.summary? x.source = some x := by
  unfold summaries summary?
  rw [List.mem_mergeSort, List.mem_map, Option.map_eq_some_iff]
  constructor
  · rintro ⟨⟨source, state⟩, hmem, rfl⟩
    exact ⟨state, (get?_eq_some_iff h).mpr hmem, rfl⟩
  · rintro ⟨state, hstate, hx⟩
    exact ⟨(x.source, state), (get?_eq_some_iff h).mp hstate, hx⟩

/-- Each key has a summary, and nothing else has. -/
theorem map_source_summaries_perm (t : Tracker) :
    (t.summaries.map (·.source)).Perm t.keys := by
  unfold summaries keys
  refine ((List.mergeSort_perm _ _).map _).trans ?_
  rw [List.map_map]
  exact List.Perm.refl _

/-! ## Its order -/

theorem summaries_pairwise {t : Tracker} (h : t.keys.Nodup) :
    t.summaries.Pairwise fun x y => x.source.Before y.source := by
  have hsorted : t.summaries.Pairwise fun x y => decide (x.source.rank ≤ y.source.rank) = true :=
    @List.pairwise_mergeSort Summary (fun x y => decide (x.source.rank ≤ y.source.rank))
      (fun _ _ _ hxy hyz => decide_eq_true
        (Nat.le_trans (of_decide_eq_true hxy) (of_decide_eq_true hyz)))
      (fun _ _ => (Bool.or_eq_true _ _).mpr
        ((Nat.le_total _ _).imp decide_eq_true decide_eq_true))
      _
  have hdistinct : t.summaries.Pairwise fun x y => x.source ≠ y.source :=
    List.pairwise_map.mp (t.map_source_summaries_perm.nodup_iff.mpr h)
  refine (hsorted.and hdistinct).imp fun h => Endpoint.before_iff.mpr ?_
  exact Nat.lt_of_le_of_ne (of_decide_eq_true h.1) fun heq => h.2 (Endpoint.rank_inj heq)

/-- **Trackers with the same states have the same summaries**, in whatever
order they have the states. -/
theorem summaries_congr {t u : Tracker} (ht : t.keys.Nodup) (hu : u.keys.Nodup)
    (h : ∀ source, u.get? source = t.get? source) : u.summaries = t.summaries := by
  have hirrefl : ∀ x y : Summary, x.source.Before y.source → x ≠ y := by
    rintro x y hxy rfl
    exact Nat.lt_irrefl _ (Endpoint.before_iff.mp hxy)
  have hperm : u.summaries.Perm t.summaries := by
    refine (List.perm_ext_iff_of_nodup ((summaries_pairwise hu).imp (hirrefl _ _))
      ((summaries_pairwise ht).imp (hirrefl _ _))).mpr fun x => ?_
    rw [mem_summaries_iff hu, mem_summaries_iff ht]
    unfold summary?
    rw [h]
  refine hperm.eq_of_pairwise (fun x y _ _ hxy hyx => ?_) (summaries_pairwise hu)
    (summaries_pairwise ht)
  exact absurd (Endpoint.before_iff.mp hyx) (Nat.lt_asymm (Endpoint.before_iff.mp hxy))

end Tracker

/-! ## Its entries -/

/-- **What a summary says of the packets of its sender.** Its state is the one
they give, its duration is counted from the first that came to the last, and
there are rates if that is positive. They are quotients by its seconds, and
there are some for the counters if a packet had any. -/
structure Summary.Reports (x : Summary) (ps : List Packet) : Prop where
  state : SourceState.ofPackets ps = some x.state
  duration : ∃ first last, ps.head? = some first ∧ ps.getLast? = some last ∧
    x.duration.nanoseconds = last.timestamp.nanoseconds - first.timestamp.nanoseconds
  rates : x.rates.isSome ↔ 0 < x.duration.nanoseconds
  divided : ∀ rates ∈ x.rates, 0 < x.duration.seconds ∧
    rates = Rates.ofState x.duration.seconds x.state
  counters : ∀ rates ∈ x.rates, (rates.counters.isSome ↔ ∃ p ∈ ps, p.isStats)

theorem Summary.ofState_reports {ps : List Packet} {state : SourceState}
    (h : SourceState.ofPackets ps = some state) (source : Endpoint) :
    (Summary.ofState source state).Reports ps := by
  have hsum := SourceState.ofPackets_summarises h
  have hiff : state.duration.isPositive = true ↔ 0 < state.duration.nanoseconds :=
    decide_eq_true_iff
  have hrates : ∀ rates ∈ (Summary.ofState source state).rates,
      0 < state.duration.nanoseconds ∧ rates = Rates.ofState state.duration.seconds state := by
    intro rates hmem
    obtain ⟨hpositive, heq⟩ := Option.mem_ite_none_right.mp hmem
    exact ⟨hiff.mp hpositive, (Option.some.inj heq).symm⟩
  refine ⟨h, ?_, ?_, ?_, ?_⟩
  · obtain ⟨first, hfirst, hstart⟩ := Option.map_eq_some_iff.mp hsum.first
    obtain ⟨last, hlast, hend⟩ := Option.map_eq_some_iff.mp hsum.last
    refine ⟨first, last, hfirst, hlast, ?_⟩
    rw [hstart, hend]
    rfl
  · show (if state.duration.isPositive then some _ else none).isSome ↔ _
    rw [Option.isSome_ite]
    exact hiff
  · intro rates hmem
    obtain ⟨hpositive, rfl⟩ := hrates rates hmem
    exact ⟨Duration.seconds_pos hpositive, rfl⟩
  · intro rates hmem
    obtain ⟨-, rfl⟩ := hrates rates hmem
    show (state.counters.map _).isSome ↔ _
    rw [Option.isSome_map, hsum.counters, hsum.stats, List.countP_pos_iff]

namespace Tracker

/-- **The summaries are complete, in order, and say what the packets do.**
After any packets there is one for each sender, and they are in the order of
the endpoints. Each is the one that is given for its sender alone, and reports
that sender's own packets. There is none for anyone who has sent nothing. Any
other tracker that has each key once, and the same states under them, has the
same list. -/
theorem summaries_run (ps : List Packet) :
    (∀ source, ((empty.run ps).summaries.map (·.source)).count source
        = if source ∈ ps.map (·.source) then 1 else 0) ∧
      ((empty.run ps).summaries.Pairwise fun x y => x.source.Before y.source) ∧
      (∀ x ∈ (empty.run ps).summaries,
        (empty.run ps).summary? x.source = some x ∧ x.Reports (own x.source ps)) ∧
      (∀ source, (empty.run ps).summary? source = none ↔ ∀ p ∈ ps, p.source ≠ source) ∧
      ∀ u : Tracker, u.keys.Nodup → (∀ source, u.get? source = (empty.run ps).get? source) →
        u.summaries = (empty.run ps).summaries := by
  have hnodup : (empty.run ps).keys.Nodup := @nodup_keys_run empty List.nodup_nil ps
  refine ⟨fun source => ?_, summaries_pairwise hnodup, fun x hx => ?_, fun source => ?_,
    fun u hu h => summaries_congr hnodup hu h⟩
  · have hmem : source ∈ (empty.run ps).keys ↔ source ∈ ps.map (·.source) :=
      mem_keys_run.trans (or_iff_right List.not_mem_nil)
    rw [(map_source_summaries_perm _).count_eq, hnodup.count, if_congr hmem rfl rfl]
  · have hsummary := (mem_summaries_iff hnodup).mp hx
    obtain ⟨state, hstate, hofState⟩ := Option.map_eq_some_iff.mp hsummary
    rw [get?_run_empty] at hstate
    exact ⟨hsummary, hofState ▸ Summary.ofState_reports hstate x.source⟩
  · unfold summary?
    rw [Option.map_eq_none_iff, get?_run_empty, SourceState.ofPackets_eq_none_iff, own_eq_nil_iff]

/-- The packet that came last was captured first. -/
example (header : Header) :
    ((empty.run [⟨⟨7, 0⟩, .unspecified, ⟨header, .records []⟩⟩,
        ⟨⟨4, 0⟩, .unspecified, ⟨header, .records []⟩⟩]).summary? .unspecified).map
      (fun x => (x.duration.nanoseconds, x.rates.isSome)) = some (-3, false) := by rfl

end Tracker

end FlowTelemetry

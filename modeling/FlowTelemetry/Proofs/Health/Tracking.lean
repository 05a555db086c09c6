import FlowTelemetry.Health.Tracker
import FlowTelemetry.Proofs.Health.Source
import Mathlib.Data.Finset.Card

/-!
# Senders are tracked independently

A tracker is fed the packets of all senders as they come. It should make no
difference to a sender what others send in between: its state is the one that
its own packets give, and it has a state as soon as it has sent anything.

`get?_update` says what one packet does to the state under any key, and
`get?_run` what any number of packets do: under each key the tracker goes
through the packets of that key and no others. The keys themselves are those
of the senders, each once, which is what makes the size a number of senders.
-/

namespace FlowTelemetry

/-- **Packets that are alike to those who keep track of senders**: they come
from the same sender at the same time, and no state is changed by one in
another way than by the other. -/
structure Packet.Alike (p q : Packet) : Prop where
  source : q.source = p.source
  timestamp : q.timestamp = p.timestamp
  update : ∀ state : SourceState, state.update q = state.update p

namespace Tracker

/-- The senders that have been heard of. -/
def keys (t : Tracker) : List Endpoint := t.sources.map Prod.fst

/-- The packets of one sender, in the order in which they came. -/
def own (source : Endpoint) (ps : List Packet) : List Packet :=
  ps.filter fun p => decide (p.source = source)

/-- A packet is one of a sender's own if it comes from that sender. -/
theorem own_cons (source : Endpoint) (p : Packet) (ps : List Packet) :
    own source (p :: ps) = if p.source = source then p :: own source ps else own source ps := by
  unfold own
  rw [List.filter_cons]
  by_cases h : p.source = source
  · rw [if_pos h, if_pos (decide_eq_true h)]
  · rw [if_neg h, if_neg (by rw [decide_eq_false h]; exact Bool.false_ne_true)]

/-! ## One packet -/

/-- The state that is looked up is the one of the first entry, or one behind
it. -/
theorem lookup_cons_ite (entry : Endpoint × SourceState) (rest : List (Endpoint × SourceState))
    (source : Endpoint) :
    (entry :: rest).lookup source
      = if entry.1 = source then some entry.2 else rest.lookup source := by
  rw [List.lookup_cons]
  by_cases h : entry.1 = source
  · rw [if_pos h, h, beq_self_eq_true]
  · rw [if_neg h, beq_eq_false_iff_ne.mpr (Ne.symm h)]

/-- The states in a list after a packet: one is brought up to date or begun,
and the others are what they were. -/
theorem lookup_updateSources (p : Packet) (sources : List (Endpoint × SourceState))
    (source : Endpoint) :
    (updateSources p sources).lookup source
      = if p.source = source
        then some (((sources.lookup source).getD (.initial p.timestamp)).update p)
        else sources.lookup source := by
  induction sources with
  | nil =>
    unfold updateSources
    rw [lookup_cons_ite]
    rfl
  | cons entry rest ih =>
    unfold updateSources
    by_cases hentry : entry.1 = p.source
    · rw [if_pos hentry, lookup_cons_ite, lookup_cons_ite, hentry]
      by_cases hp : p.source = source
      · rw [if_pos hp, if_pos hp, if_pos hp]
        rfl
      · rw [if_neg hp, if_neg hp, if_neg hp]
    · rw [if_neg hentry, lookup_cons_ite, lookup_cons_ite, ih]
      by_cases hp : p.source = source
      · have hne : entry.1 ≠ source := fun h => hentry (h.trans hp.symm)
        rw [if_neg hne, if_neg hne]
      · rw [if_neg hp, if_neg hp]

/-- **A packet changes the state of its sender, and no other.** -/
theorem get?_update (t : Tracker) (p : Packet) (source : Endpoint) :
    (t.update p).get? source
      = if p.source = source
        then some (((t.get? source).getD (.initial p.timestamp)).update p)
        else t.get? source :=
  lookup_updateSources p t.sources source

/-- A packet adds its sender to the keys, unless it is one of them. -/
theorem keys_update (t : Tracker) (p : Packet) :
    (t.update p).keys = if p.source ∈ t.keys then t.keys else t.keys ++ [p.source] := by
  obtain ⟨sources⟩ := t
  show (updateSources p sources).map Prod.fst
    = if p.source ∈ sources.map Prod.fst then sources.map Prod.fst
      else sources.map Prod.fst ++ [p.source]
  induction sources with
  | nil => rfl
  | cons entry rest ih =>
    unfold updateSources
    by_cases hentry : entry.1 = p.source
    · rw [if_pos hentry, List.map_cons, List.map_cons, hentry, if_pos List.mem_cons_self]
    · have hiff : p.source ∈ entry.1 :: rest.map Prod.fst ↔ p.source ∈ rest.map Prod.fst :=
        List.mem_cons.trans (or_iff_right (Ne.symm hentry))
      rw [if_neg hentry, List.map_cons, List.map_cons, ih, if_congr hiff rfl rfl]
      exact apply_ite (entry.1 :: ·) _ _ _

/-- No sender is entered twice. -/
theorem nodup_keys_update {t : Tracker} (h : t.keys.Nodup) (p : Packet) :
    (t.update p).keys.Nodup := by
  rw [keys_update]
  split
  · exact h
  · next hmem => exact List.concat_eq_append ▸ List.Nodup.concat hmem h

/-- The keys after a packet are those before it and the sender. -/
theorem mem_keys_update {t : Tracker} {p : Packet} {source : Endpoint} :
    source ∈ (t.update p).keys ↔ source ∈ t.keys ∨ source = p.source := by
  rw [keys_update]
  split
  · next hmem => exact (or_iff_left_of_imp fun h => h ▸ hmem).symm
  · exact List.mem_append.trans (or_congr_right List.mem_singleton)

/-- The size counts the keys. -/
theorem size_eq_length_keys (t : Tracker) : t.size = t.keys.length := (List.length_map _).symm

/-- No sender is ever removed. -/
theorem size_le_size_update (t : Tracker) (p : Packet) : t.size ≤ (t.update p).size := by
  rw [size_eq_length_keys, size_eq_length_keys, keys_update]
  split
  · exact Nat.le_refl _
  · rw [List.length_append]
    exact Nat.le_add_right _ _

theorem updateSources_of_alike {p q : Packet} (h : p.Alike q)
    (sources : List (Endpoint × SourceState)) :
    updateSources q sources = updateSources p sources := by
  induction sources with
  | nil =>
    unfold updateSources
    rw [h.source, h.timestamp, h.update]
  | cons entry rest ih =>
    unfold updateSources
    rw [h.source, h.update, ih]

/-- Packets that are alike leave the same states. -/
theorem update_of_alike {p q : Packet} (h : p.Alike q) (t : Tracker) : t.update q = t.update p :=
  congrArg mk (updateSources_of_alike h t.sources)

/-! ## Any number of packets -/

theorem run_cons (t : Tracker) (p : Packet) (ps : List Packet) :
    t.run (p :: ps) = (t.update p).run ps := rfl

/-- The state of a sender after packets, from the one before them. -/
def resume : Option SourceState → List Packet → Option SourceState
  | some state, ps => some (state.run ps)
  | none, ps => SourceState.ofPackets ps

/-- **Under each key a tracker goes through the packets of that key.** The
induction is on the packets: each one either is the next of its sender, or
leaves the state alone. -/
theorem get?_run (t : Tracker) (ps : List Packet) (source : Endpoint) :
    (t.run ps).get? source = resume (t.get? source) (own source ps) := by
  induction ps generalizing t with
  | nil => cases h : t.get? source <;> exact h
  | cons p ps ih =>
    rw [run_cons, ih, get?_update, own_cons]
    by_cases hp : p.source = source
    · rw [if_pos hp, if_pos hp]
      cases t.get? source <;> rfl
    · rw [if_neg hp, if_neg hp]

/-- A tracker that has heard of no one has the states that the packets of each
sender give. -/
theorem get?_run_empty (ps : List Packet) (source : Endpoint) :
    (empty.run ps).get? source = SourceState.ofPackets (own source ps) :=
  get?_run empty ps source

/-- The packets of a sender are all its own. -/
theorem own_own (source : Endpoint) (ps : List Packet) :
    own source (own source ps) = own source ps := by
  unfold own
  rw [List.filter_filter]
  exact List.filter_congr fun p _ => Bool.and_self _

theorem own_eq_nil_iff {source : Endpoint} {ps : List Packet} :
    own source ps = [] ↔ ∀ p ∈ ps, p.source ≠ source := by
  unfold own
  rw [List.filter_eq_nil_iff]
  exact forall₂_congr fun p _ => not_congr decide_eq_true_iff

/-- The keys are the senders heard of before and those of the packets. -/
theorem mem_keys_run {t : Tracker} {ps : List Packet} {source : Endpoint} :
    source ∈ (t.run ps).keys ↔ source ∈ t.keys ∨ source ∈ ps.map (·.source) := by
  induction ps generalizing t with
  | nil => exact (or_iff_left List.not_mem_nil).symm
  | cons p ps ih =>
    rw [run_cons, ih, mem_keys_update, List.map_cons, List.mem_cons, or_assoc]

theorem nodup_keys_run {t : Tracker} (h : t.keys.Nodup) (ps : List Packet) :
    (t.run ps).keys.Nodup := by
  induction ps generalizing t with
  | nil => exact h
  | cons p ps ih => exact ih (nodup_keys_update h p)

theorem size_le_size_run (t : Tracker) (ps : List Packet) : t.size ≤ (t.run ps).size := by
  induction ps generalizing t with
  | nil => exact Nat.le_refl _
  | cons p ps ih => exact (size_le_size_update t p).trans (ih (t.update p))

/-- **The size is a number of senders.** -/
theorem size_run_empty (ps : List Packet) :
    (empty.run ps).size = (ps.map (·.source)).toFinset.card := by
  have hnodup : (empty.run ps).keys.Nodup := @nodup_keys_run empty List.nodup_nil ps
  rw [size_eq_length_keys, ← List.toFinset_card_of_nodup hnodup]
  refine congrArg Finset.card ?_
  ext source
  rw [List.mem_toFinset, List.mem_toFinset, mem_keys_run]
  exact or_iff_right List.not_mem_nil

/-- If each packet is exchanged for one that is alike to those who keep track,
they are none the wiser. -/
theorem run_map_of_alike {ps : List Packet} {change : Packet → Packet}
    (h : ∀ p ∈ ps, p.Alike (change p)) (t : Tracker) : t.run (ps.map change) = t.run ps := by
  induction ps generalizing t with
  | nil => rfl
  | cons p ps ih =>
    obtain ⟨hp, hps⟩ := List.forall_mem_cons.mp h
    show (t.update (change p)).run (ps.map change) = (t.update p).run ps
    rw [update_of_alike hp, ih hps]

/-- **Senders are tracked independently and completely.** A sender is known
once it has sent something. Its state is the one that its own packets give to
a tracker of its own, and it sums them up. There are as many entries as
senders, and never fewer than before. How the packets of different senders
are interleaved does not matter. -/
theorem get?_run_independent (ps : List Packet) (source : Endpoint) :
    ((empty.run ps).get? source = none ↔ ∀ p ∈ ps, p.source ≠ source) ∧
      (empty.run ps).get? source = (empty.run (own source ps)).get? source ∧
      (∀ state ∈ (empty.run ps).get? source, state.Summarises (own source ps)) ∧
      (empty.run ps).size = (ps.map (·.source)).toFinset.card ∧
      (∀ later, (empty.run ps).size ≤ (empty.run (ps ++ later)).size) ∧
      ∀ qs, (∀ sender, own sender qs = own sender ps) →
        ∀ sender, (empty.run qs).get? sender = (empty.run ps).get? sender := by
  refine ⟨?_, ?_, ?_, size_run_empty ps, ?_, ?_⟩
  · rw [get?_run_empty, ← own_eq_nil_iff]
    cases own source ps with
    | nil => exact iff_of_true rfl rfl
    | cons p ps => exact iff_of_false (fun h => nomatch h) (fun h => nomatch h)
  · rw [get?_run_empty, get?_run_empty, own_own]
  · intro state hstate
    rw [get?_run_empty] at hstate
    exact SourceState.ofPackets_summarises hstate
  · intro later
    unfold run
    rw [List.foldl_append]
    exact size_le_size_run (empty.run ps) later
  · intro qs hown sender
    rw [get?_run_empty, get?_run_empty, hown]

end Tracker

end FlowTelemetry

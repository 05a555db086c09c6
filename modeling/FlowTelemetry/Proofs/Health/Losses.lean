import FlowTelemetry.Proofs.Health.Reconciliation
import Mathlib.Data.Finset.Card
import Mathlib.Order.Interval.Finset.Nat

/-!
# What is lost is what is missing

The losses of a sender are an estimate, arrived at by adding whole gaps and
taking back single messages. Nothing in it remembers which messages were lost.
If no message comes twice and none comes before the first one was sent, the
estimate is nevertheless exact: it is the number of the messages between the
first and the highest that have not come.

Different orders get there in different ways. A message that overtakes others
opens a gap that they then close one by one; in their proper order there is no
gap at all. The closed form of the losses does not tell these apart
(`Reconciled.lost`), because nothing but the repetitions in it depends on the
order, and there are none. What remains is a span less a number of messages,
which is the size of a set (`card_missing`), and a set has no order.
-/

namespace FlowTelemetry.SequenceState

/-- The numbers from one to another that no message has. -/
def missing (first last : UInt32) (ns : List UInt32) : Finset Nat :=
  Finset.Icc first.toNat last.toNat \ (ns.map UInt32.toNat).toFinset

/-- The greater of two numbers is one of them, and no less than either. -/
instance : Std.LawfulOrderMax UInt32 where
  max_eq_or a b := by
    by_cases h : a ≤ b
    · exact Or.inr (if_pos h)
    · exact Or.inl (if_neg h)
  max_le_iff a b c := by
    by_cases h : a ≤ b
    · rw [show max a b = b from if_pos h]
      exact ⟨fun hb => ⟨UInt32.le_trans h hb, hb⟩, And.right⟩
    · rw [show max a b = a from if_neg h]
      have hba : b ≤ a := UInt32.le_of_lt (UInt32.not_le.mp h)
      exact ⟨fun ha => ⟨ha, UInt32.le_trans hba ha⟩, And.left⟩

/-! ## Numbers that differ -/

/-- Where no number comes twice, none repeats the highest one before it. -/
theorem repeatCount_eq_zero {ns : List UInt32} (h : ns.Nodup) : repeatCount ns = 0 := by
  unfold repeatCount countAgainst
  rw [List.countP_eq_zero]
  intro i _ hrepeat
  obtain ⟨n, hn, highest, hhighest, heq⟩ := of_decide_eq_true hrepeat
  obtain rfl : n = highest := of_decide_eq_true heq
  have hearlier : n ∈ ns.take i := List.max?_mem hhighest
  have hlater : n ∈ ns.drop i := List.mem_of_getElem? (i := 0) (by rwa [List.getElem?_drop])
  exact List.disjoint_take_drop h (Nat.le_refl i) hearlier hlater

/-- The numbers of a run as a set, within the span that they lie in. -/
theorem received_subset {first last : UInt32} {ns : List UInt32}
    (hwithin : ∀ n ∈ ns, first ≤ n ∧ n ≤ last) :
    (ns.map UInt32.toNat).toFinset ⊆ Finset.Icc first.toNat last.toNat := by
  intro i hi
  obtain ⟨n, hn, rfl⟩ := List.mem_map.mp (List.mem_toFinset.mp hi)
  exact Finset.mem_Icc.mpr (hwithin n hn)

/-- Where no number comes twice, the set has as many numbers as the run. -/
theorem card_received {ns : List UInt32} (hdistinct : ns.Nodup) :
    (ns.map UInt32.toNat).toFinset.card = ns.length := by
  rw [List.toFinset_card_of_nodup (hdistinct.map fun _ _ h => UInt32.toNat_inj.mp h),
    List.length_map]

/-- **The numbers that are missing** are as many as there are in the span, less
those that are there. -/
theorem card_missing {first last : UInt32} {ns : List UInt32} (hspan : first ≤ last)
    (hdistinct : ns.Nodup) (hwithin : ∀ n ∈ ns, first ≤ n ∧ n ≤ last) :
    ((missing first last ns).card : Int) = (last.toNat : Int) + 1 - first.toNat - ns.length := by
  have hsubset := received_subset hwithin
  have hle := Finset.card_le_card hsubset
  have hcard := Finset.card_sdiff_of_subset hsubset
  rw [card_received hdistinct, Nat.card_Icc] at hle hcard
  unfold missing
  rw [hcard]
  have hspan' := UInt32.le_iff_toNat_le.mp hspan
  omega

/-- Nothing is missing if all numbers of the span are there. -/
theorem missing_eq_empty_iff {first last : UInt32} {ns : List UInt32}
    (hwithin : ∀ n ∈ ns, first ≤ n ∧ n ≤ last) :
    missing first last ns = ∅ ↔ ∀ n, n ∈ ns ↔ first ≤ n ∧ n ≤ last := by
  unfold missing
  rw [Finset.sdiff_eq_empty_iff_subset]
  constructor
  · intro hall n
    refine ⟨hwithin n, fun hn => ?_⟩
    have hmem := hall (Finset.mem_Icc.mpr hn)
    obtain ⟨m, hm, heq⟩ := List.mem_map.mp (List.mem_toFinset.mp hmem)
    exact UInt32.toNat_inj.mp heq ▸ hm
  · intro hall i hi
    obtain ⟨hlow, hhigh⟩ := Finset.mem_Icc.mp hi
    have hnat : (UInt32.ofNat i).toNat = i :=
      UInt32.toNat_ofNat_of_lt' (Nat.lt_of_le_of_lt hhigh last.toNat_lt)
    have hn : UInt32.ofNat i ∈ ns :=
      (hall _).mpr ⟨UInt32.le_iff_toNat_le.mpr (hnat.symm ▸ hlow),
        UInt32.le_iff_toNat_le.mpr (hnat.symm ▸ hhigh)⟩
    exact List.mem_toFinset.mpr (List.mem_map.mpr ⟨_, hn, hnat⟩)

/-! ## Runs -/

/-- **What is lost is what is missing**, in a run of different numbers that
begins with the lowest. -/
theorem Reconciled.lost_eq_card {first last : UInt32} {ns : List UInt32} {s : SequenceState}
    (h : Reconciled first ns last s) (hdistinct : ns.Nodup) (hlowest : ∀ n ∈ ns, first ≤ n) :
    s.lost = (missing first last ns).card ∧
      (s.lost = 0 ↔ ∀ n, n ∈ ns ↔ first ≤ n ∧ n ≤ last) := by
  obtain ⟨hmem, hhighest⟩ := List.max?_eq_some_iff.mp h.highest
  have hwithin : ∀ n ∈ ns, first ≤ n ∧ n ≤ last := fun n hn => ⟨hlowest n hn, hhighest n hn⟩
  have hlost : s.lost = (missing first last ns).card := by
    rw [h.lost, repeatCount_eq_zero hdistinct, card_missing (hlowest last hmem) hdistinct hwithin]
    omega
  refine ⟨hlost, ?_⟩
  rw [hlost, Int.natCast_eq_zero, Finset.card_eq_zero, missing_eq_empty_iff hwithin]

/-- Numbers in another order have the same highest number. -/
theorem max?_perm {ns ms : List UInt32} (h : ns.Perm ms) : ns.max? = ms.max? := by
  refine Option.ext fun last => ?_
  rw [List.max?_eq_some_iff, List.max?_eq_some_iff, h.mem_iff]
  exact and_congr_right fun _ => forall_congr' fun n => imp_congr_left h.mem_iff

/-- **The losses are exact, and do not depend on the order.** After a run of
different numbers that begins with the lowest, as many messages are lost as are
missing from the first to the highest, and there are no losses exactly if the
run has all of these numbers. The losses are never negative on the way. If the
messages behind the first come in another order, all that is different in the
end is how many of them were late. -/
theorem run_lost_eq_card (first : UInt32) (rest : List UInt32)
    (hdistinct : (first :: rest).Nodup) (hlowest : ∀ n ∈ rest, first ≤ n) :
    let ns := first :: rest
    let s := initial.run ns
    (∃ last, s.last = some last ∧ s.lost = (missing first last ns).card ∧
        (s.lost = 0 ↔ ∀ n, n ∈ ns ↔ first ≤ n ∧ n ≤ last)) ∧
      (∀ k, 0 ≤ (initial.run (ns.take k)).lost) ∧
      ∀ rest', rest.Perm rest' →
        let s' := initial.run (first :: rest')
        s'.last = s.last ∧ s'.total = s.total ∧ s'.lost = s.lost := by
  intro ns s
  have hlowest' : ∀ n ∈ ns, first ≤ n := List.forall_mem_cons.mpr ⟨UInt32.le_refl first, hlowest⟩
  obtain ⟨last, h⟩ := reconciled_run first rest
  refine ⟨⟨last, h.noted, h.lost_eq_card hdistinct hlowest'⟩, ?_, ?_⟩
  · intro k
    cases k with
    | zero => exact Int.le_refl 0
    | succ k =>
      obtain ⟨early, hearly⟩ := reconciled_run first (rest.take k)
      have hsub : (ns.take (k + 1)).Sublist ns := List.take_sublist _ _
      have hlost := (hearly.lost_eq_card (hdistinct.sublist hsub)
        fun n hn => hlowest' n (hsub.subset hn)).1
      exact hlost ▸ Int.natCast_nonneg _
  · intro rest' hperm s'
    have hns : ns.Perm (first :: rest') := hperm.cons first
    obtain ⟨last', h'⟩ := reconciled_run first rest'
    obtain rfl : last = last' :=
      Option.some.inj (h.highest.symm.trans ((max?_perm hns).trans h'.highest))
    refine ⟨h'.noted.trans h.noted.symm, ?_, ?_⟩
    · rw [h'.total, h.total, hns.length_eq]
    · rw [h'.lost, h.lost, repeatCount_eq_zero hdistinct,
        repeatCount_eq_zero (hns.nodup hdistinct), hns.length_eq]

/-- Of the numbers from 10 to 14 the run lacks two. In order, none of its
messages is late, and the losses are the same. -/
theorem run_lost_eq_card_overtaken :
    [(10 : UInt32), 14, 12].Nodup ∧ (∀ n ∈ [14, 12], (10 : UInt32) ≤ n) ∧
      (initial.run [10, 14, 12]).lost = (missing 10 14 [10, 14, 12]).card ∧
      missing 10 14 [10, 14, 12] = {11, 13} ∧
      (initial.run [10, 12, 14]).lost = (initial.run [10, 14, 12]).lost ∧
      (initial.run [10, 14, 12]).late = 1 ∧ (initial.run [10, 12, 14]).late = 0 := by
  have hdistinct : [(10 : UInt32), 14, 12].Nodup := by decide
  have hlowest : ∀ n ∈ [14, 12], (10 : UInt32) ≤ n :=
    List.forall_mem_cons.mpr ⟨by decide, List.forall_mem_singleton.mpr (by decide)⟩
  obtain ⟨⟨last, hlast, hlost, -⟩, -, horder⟩ := run_lost_eq_card 10 [14, 12] hdistinct hlowest
  obtain rfl : last = 14 := Option.some.inj (hlast.symm.trans (by decide))
  exact ⟨by decide, hlowest, hlost, by decide, (horder [12, 14] (List.Perm.swap ..)).2.2, by decide,
    by decide⟩

end FlowTelemetry.SequenceState

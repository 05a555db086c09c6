import FlowTelemetry.Proofs.Health.Source
import Mathlib.Algebra.Ring.Int.Defs
import Mathlib.Data.List.Induction

/-!
# What sequence numbers are reconciled into

The four numbers that are kept about the messages of a sender depend on the
order in which the messages came. A gap adds many losses at once, a late
message takes one back, and a repeated one does nothing. All of this can
nevertheless be read off the numbers themselves, message by message, by
comparing each with the highest one before it.

`Reconciled` is what can be read off. A single message takes it from some
numbers to one more (`Reconciled.update`), so it holds of every run, and with
it of every stretch that a run begins with.

## Words of fixed length

A program that runs keeps these numbers in words of 64 bits. `updateWords?`
takes note of a message in that way, and has no result if any operation on
the way leaves its range. The losses cannot grow beyond the span of the
numbers themselves, so no operation does, as long as there are fewer than
2⁶³ messages.
-/

namespace FlowTelemetry

/-! ## Arithmetic in words -/

namespace Word

/-- A number without a sign, if a word of 64 bits can hold it. -/
def unsigned? (n : Nat) : Option Nat := if n < 2 ^ 64 then some n else none

/-- A number with a sign, if a word of 64 bits can hold it. -/
def signed? (n : Int) : Option Int := if -2 ^ 63 ≤ n ∧ n < 2 ^ 63 then some n else none

theorem unsigned?_eq_some {n : Nat} (h : n < 2 ^ 64) : unsigned? n = some n := if_pos h

theorem signed?_eq_some {n : Int} (hlow : -2 ^ 63 ≤ n) (hhigh : n < 2 ^ 63) :
    signed? n = some n := if_pos ⟨hlow, hhigh⟩

/-- **A run in words is the run without them** if each of its steps is, from where
the steps before it lead. -/
theorem foldlM_eq_some {σ α : Type} {step : σ → α → σ} {step? : σ → α → Option σ} {s : σ}
    {as : List α} (h : ∀ front a, front ++ [a] <+: as →
      step? (front.foldl step s) a = some (step (front.foldl step s) a)) :
    as.foldlM step? s = some (as.foldl step s) := by
  induction as generalizing s with
  | nil => rfl
  | cons a as ih =>
    have hstep : step? s a = some (step s a) := h [] a ⟨as, rfl⟩
    rw [List.foldlM_cons, hstep]
    exact ih fun front b hfront => h (a :: front) b (List.cons_prefix_cons.mpr ⟨rfl, hfront⟩)

end Word

namespace SequenceState

/-- Takes note of a message with the given number, in words of 64 bits. There
is a result only if none of the operations leaves the range of its words. -/
def updateWords? (s : SequenceState) (n : UInt32) : Option SequenceState := do
  let total ← Word.unsigned? (s.total + 1)
  match s.last with
  | none => return { s with last := some n, total }
  | some last =>
    let expected ← Word.signed? ((last.toNat : Int) + 1)
    if n.toNat = expected then return { s with last := some n, total }
    else if expected < n.toNat then
      let gap ← Word.signed? (n.toNat - expected)
      let lost ← Word.signed? (s.lost + gap)
      return { s with last := some n, total, lost }
    else if n < last then
      let lost ← Word.signed? (s.lost - 1)
      let late ← Word.unsigned? (s.late + 1)
      return { s with total, lost, late }
    else return { s with total }

/-- Takes note of one message after the other, in words of 64 bits. -/
def runWords? (s : SequenceState) (ns : List UInt32) : Option SequenceState :=
  ns.foldlM updateWords? s

/-! ## Counting messages -/

/-- How many messages have a number that compares in a certain way with the
highest one before it. Nothing comes before the first message. -/
def countAgainst (compare : UInt32 → UInt32 → Bool) (ns : List UInt32) : Nat :=
  (List.range ns.length).countP fun i =>
    decide (∃ n ∈ ns[i]?, ∃ highest ∈ (ns.take i).max?, compare n highest)

/-- How many messages come late: their number is below the highest one before
it. -/
def lateCount (ns : List UInt32) : Nat := countAgainst (fun n highest => n < highest) ns

/-- How many messages repeat the highest number before them. -/
def repeatCount (ns : List UInt32) : Nat := countAgainst (fun n highest => n = highest) ns

/-- **One more message** is counted by comparing it with the highest number of
all the others. -/
theorem countAgainst_append (compare : UInt32 → UInt32 → Bool) {ns : List UInt32} {last : UInt32}
    (h : ns.max? = some last) (n : UInt32) :
    countAgainst compare (ns ++ [n])
      = countAgainst compare ns + if compare n last then 1 else 0 := by
  unfold countAgainst
  rw [List.length_append, List.length_singleton, List.range_succ, List.countP_append,
    List.countP_singleton, List.getElem?_concat_length, List.take_left, h]
  refine congrArg₂ (· + ·) (List.countP_congr fun i hi => ?_) ?_
  · -- The messages before it see neither it nor each other differently.
    have hlt : i < ns.length := List.mem_range.mp hi
    rw [List.getElem?_append_left hlt, List.take_append_of_le_length (Nat.le_of_lt hlt)]
  · simp

theorem lateCount_append {ns : List UInt32} {last : UInt32} (h : ns.max? = some last)
    (n : UInt32) : lateCount (ns ++ [n]) = lateCount ns + if n < last then 1 else 0 := by
  unfold lateCount
  rw [countAgainst_append _ h]
  simp only [decide_eq_true_eq]

theorem repeatCount_append {ns : List UInt32} {last : UInt32} (h : ns.max? = some last)
    (n : UInt32) : repeatCount (ns ++ [n]) = repeatCount ns + if n = last then 1 else 0 := by
  unfold repeatCount
  rw [countAgainst_append _ h]
  simp only [decide_eq_true_eq]

theorem countAgainst_le_length (compare : UInt32 → UInt32 → Bool) (ns : List UInt32) :
    countAgainst compare ns ≤ ns.length :=
  Nat.le_trans List.countP_le_length (Nat.le_of_eq List.length_range)

/-- The highest number after one more message. -/
theorem max?_append {ns : List UInt32} {last : UInt32} (h : ns.max? = some last) (n : UInt32) :
    (ns ++ [n]).max? = some (max last n) := by
  cases ns with
  | nil => exact nomatch h
  | cons first rest =>
    obtain rfl := Option.some.inj h
    exact congrArg some List.foldl_append

/-! ## One message -/

/-- **The three ways of a message that is not the first**: its number is above
the highest one so far, or the same, or below it. -/
theorem update_cases {s : SequenceState} {last : UInt32} (h : s.last = some last) (n : UInt32) :
    (last < n ∧ max last n = n ∧ s.update n
        = ⟨some n, s.total + 1, s.lost + ((n.toNat : Int) - last.toNat - 1), s.late⟩) ∨
      (n = last ∧ max last n = last ∧ s.update n = ⟨some last, s.total + 1, s.lost, s.late⟩) ∨
      (n < last ∧ max last n = last ∧ s.update n
        = ⟨some last, s.total + 1, s.lost - 1, s.late + 1⟩) := by
  unfold update
  rw [h]
  dsimp only
  by_cases habove : last < n
  · rw [if_pos habove]
    exact Or.inl ⟨habove, if_pos (UInt32.le_of_lt habove), rfl⟩
  · rw [if_neg habove]
    have hle : n ≤ last := UInt32.not_lt.mp habove
    by_cases hbelow : n < last
    · rw [if_pos hbelow]
      exact Or.inr (Or.inr ⟨hbelow, if_neg (UInt32.not_le.mpr hbelow), rfl⟩)
    · rw [if_neg hbelow]
      have hsame : n = last := UInt32.le_antisymm hle (UInt32.not_lt.mp hbelow)
      exact Or.inr (Or.inl ⟨hsame, (if_pos (UInt32.not_lt.mp hbelow)).trans hsame, rfl⟩)

/-- **What the numbers of messages are reconciled into.** The losses are what
the numbers span, less the messages themselves, where a repeated number is
not counted again. -/
structure Reconciled (first : UInt32) (ns : List UInt32) (last : UInt32) (s : SequenceState) :
    Prop where
  highest : ns.max? = some last
  noted : s.last = some last
  total : s.total = ns.length
  late : s.late = lateCount ns
  lost : s.lost = (last.toNat : Int) - first.toNat + 1 - ns.length + repeatCount ns
  /-- No more is taken back than there was. -/
  nonneg : 0 ≤ s.lost + s.late
  /-- Losses lie between the first number and the highest one. -/
  bounded : s.lost + s.late ≤ (last.toNat : Int) - first.toNat

namespace Reconciled

variable {first last : UInt32} {ns : List UInt32} {s : SequenceState}

/-- The first message. -/
theorem single (first : UInt32) : Reconciled first [first] first (initial.update first) where
  highest := rfl
  noted := rfl
  total := rfl
  late := by simp [lateCount, countAgainst, initial, SequenceState.update]
  lost := by simp [repeatCount, countAgainst, initial, SequenceState.update]
  nonneg := by simp [initial, SequenceState.update]
  bounded := by simp [initial, SequenceState.update]

/-- **One more message.** Only a number above all others adds to the losses,
and it adds no more than it widens the span. -/
theorem update (h : Reconciled first ns last s) (n : UInt32) :
    Reconciled first (ns ++ [n]) (max last n) (s.update n) := by
  have hcases := update_cases h.noted n
  have hhighest := max?_append h.highest n
  have hlate := lateCount_append h.highest n
  have hrepeat := repeatCount_append h.highest n
  have hlength : (ns ++ [n]).length = ns.length + 1 := List.length_append
  obtain ⟨-, -, htotal, hlate', hlost, hnonneg, hbounded⟩ := h
  obtain ⟨habove, hmax, hs⟩ | ⟨hsame, hmax, hs⟩ | ⟨hbelow, hmax, hs⟩ := hcases
  · rw [if_neg (UInt32.lt_asymm habove)] at hlate
    rw [if_neg (UInt32.ne_of_lt habove).symm] at hrepeat
    rw [UInt32.lt_iff_toNat_lt] at habove
    rw [hmax] at hhighest
    rw [hs, hmax]
    refine ⟨hhighest, rfl, ?_, ?_, ?_, ?_, ?_⟩ <;> dsimp only <;> omega
  · rw [if_neg (hsame ▸ UInt32.lt_irrefl n)] at hlate
    rw [if_pos hsame] at hrepeat
    rw [hmax] at hhighest
    rw [hs, hmax]
    refine ⟨hhighest, rfl, ?_, ?_, ?_, ?_, ?_⟩ <;> dsimp only <;> omega
  · rw [if_pos hbelow] at hlate
    rw [if_neg (UInt32.ne_of_lt hbelow)] at hrepeat
    rw [hmax] at hhighest
    rw [hs, hmax]
    refine ⟨hhighest, rfl, ?_, ?_, ?_, ?_, ?_⟩ <;> dsimp only <;> omega

end Reconciled

theorem run_append (s : SequenceState) (ns : List UInt32) (n : UInt32) :
    s.run (ns ++ [n]) = (s.run ns).update n :=
  List.foldl_append

/-- **Every run is reconciled.** -/
theorem reconciled_run (first : UInt32) (rest : List UInt32) :
    ∃ last, Reconciled first (first :: rest) last (initial.run (first :: rest)) := by
  induction rest using List.reverseRecOn with
  | nil => exact ⟨first, .single first⟩
  | append_singleton rest n ih =>
    obtain ⟨last, h⟩ := ih
    refine ⟨max last n, ?_⟩
    rw [← List.cons_append, run_append]
    exact h.update n

/-! ## Runs in words -/

/-- A message is noted in words as it is without them, as long as the counts
are not full and the losses stay away from their ends. -/
theorem updateWords?_eq_some {s : SequenceState} (n : UInt32) (htotal : s.total + 1 < 2 ^ 64)
    (hlate : s.late + 1 < 2 ^ 64) (hlow : -2 ^ 63 < s.lost) (hhigh : s.lost + 2 ^ 32 ≤ 2 ^ 63) :
    s.updateWords? n = some (s.update n) := by
  have hn := n.toNat_lt
  unfold updateWords?
  rw [Word.unsigned?_eq_some htotal]
  simp only [Option.bind_eq_bind, Option.bind_some, Option.pure_def]
  cases hlast : s.last with
  | none =>
    unfold update
    rw [hlast]
  | some last =>
    have hl := last.toNat_lt
    simp only
    rw [Word.signed?_eq_some (by omega) (by omega), Option.bind_some]
    obtain ⟨habove, -, hs⟩ | ⟨hsame, -, hs⟩ | ⟨hbelow, -, hs⟩ := update_cases hlast n
    · rw [hs]
      have hlt := UInt32.lt_iff_toNat_lt.mp habove
      by_cases hnext : (n.toNat : Int) = last.toNat + 1
      · rw [if_pos hnext, show s.lost + ((n.toNat : Int) - last.toNat - 1) = s.lost by omega]
      · rw [if_neg hnext, if_pos (by omega), Word.signed?_eq_some (by omega) (by omega),
          Option.bind_some, Word.signed?_eq_some (by omega) (by omega), Option.bind_some,
          Int.sub_sub]
    · rw [hs, hsame, if_neg (by omega), if_neg (by omega), if_neg (UInt32.lt_irrefl last)]
    · rw [hs]
      have hlt := UInt32.lt_iff_toNat_lt.mp hbelow
      rw [if_neg (by omega), if_neg (by omega), if_pos hbelow,
        Word.signed?_eq_some (by omega) (by omega), Option.bind_some,
        Word.unsigned?_eq_some hlate, Option.bind_some]

/-- The counts do not exceed the messages, and the losses are those of one span
of numbers at most. -/
theorem run_bounds (ns : List UInt32) :
    (initial.run ns).total = ns.length ∧ (initial.run ns).late ≤ ns.length ∧
      0 ≤ (initial.run ns).lost + (initial.run ns).late ∧
      (initial.run ns).lost + (initial.run ns).late < 2 ^ 32 := by
  cases ns with
  | nil => exact ⟨rfl, Nat.le_refl _, Int.le_refl _, by decide⟩
  | cons first rest =>
    obtain ⟨last, h⟩ := reconciled_run first rest
    have hlast := last.toNat_lt
    have hbounded := h.bounded
    exact ⟨h.total, h.late ▸ countAgainst_le_length _ _, h.nonneg, by omega⟩

/-- **No operation leaves its range** in a run of fewer than 2⁶³ messages. -/
theorem runWords?_eq_some {ns : List UInt32} (h : ns.length < 2 ^ 63) :
    initial.runWords? ns = some (initial.run ns) := by
  refine Word.foldlM_eq_some fun front n hfront => ?_
  have hlength := hfront.length_le
  rw [List.length_append, List.length_singleton] at hlength
  obtain ⟨htotal, hlate, hlow, hhigh⟩ := run_bounds front
  exact updateWords?_eq_some (s := initial.run front) n (by omega) (by omega) (by omega) (by omega)

/-- **Sequence numbers are reconciled in closed form, and without overflow.**
The highest number, the messages, those that were late and the losses can be
read off the numbers. At any time the losses and the late messages together
lie within the span of the numbers. A run of fewer than 2⁶³ messages can be
noted in words of 64 bits, none of whose operations leaves its range. -/
theorem run_reconciles (first : UInt32) (rest : List UInt32) :
    let ns := first :: rest
    let s := initial.run ns
    (∃ last, ns.max? = some last ∧ s.last = some last ∧ s.total = ns.length ∧
        s.late = lateCount ns ∧
        s.lost = (last.toNat : Int) - first.toNat + 1 - ns.length + repeatCount ns) ∧
      (∀ k, let early := initial.run (first :: rest.take k)
        ∃ last, early.last = some last ∧ 0 ≤ early.lost + early.late ∧
          early.lost + early.late ≤ (last.toNat : Int) - first.toNat ∧
          (last.toNat : Int) - first.toNat < 2 ^ 32) ∧
      (ns.length < 2 ^ 63 → initial.runWords? ns = some s) := by
  intro ns s
  refine ⟨?_, ?_, runWords?_eq_some⟩
  · obtain ⟨last, h⟩ := reconciled_run first rest
    exact ⟨last, h.highest, h.noted, h.total, h.late, h.lost⟩
  · intro k early
    obtain ⟨last, h⟩ := reconciled_run first (rest.take k)
    have hlast := last.toNat_lt
    exact ⟨last, h.noted, h.nonneg, h.bounded, by omega⟩

/-- At the end of the numbers there is nothing above the highest one, and a
late message that was not lost is counted below zero. -/
example : initial.runWords? [0xFFFFFFFE, 0xFFFFFFFF, 0xFFFFFFFF, 3]
    = some ⟨some 0xFFFFFFFF, 4, -1, 1⟩ := by decide

end SequenceState

end FlowTelemetry

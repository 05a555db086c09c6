import FlowTelemetry.Proofs.Health.Reconciliation

/-!
# Numbers that wrap around

A sender that has used up the numbers goes on with zero. Numbers are compared
as they are, and a wrap is not corrected for. It looks like a single message
that is very late for as long as there is only one behind it. But the highest
number so far never goes down, and nothing is above the highest number there
is. From there on no message is ever in order: all that differ from it are
late, and each of them takes back a loss that there never was (`run_of_below`).
What a wrap costs are therefore all the messages behind it.

The messages up to the wrap are in order, and change nothing but the highest
number (`run_upwards`). The two together say what becomes of a run that wraps
around (`run_wrapping`).
-/

namespace FlowTelemetry.SequenceState

/-- Some numbers one after the other. -/
def upwards (first count : Nat) : List UInt32 := (List.range' first count).map UInt32.ofNat

/-- **The numbers of a sender that has wrapped around**: from the first to the
highest there is, and then from zero to the last. -/
def wrapping (first last : UInt32) : List UInt32 :=
  upwards first.toNat (UInt32.size - first.toNat) ++ upwards 0 (last.toNat + 1)

theorem length_upwards (first count : Nat) : (upwards first count).length = count := by
  unfold upwards
  rw [List.length_map, List.length_range']

theorem upwards_succ (first count : Nat) :
    upwards first (count + 1) = UInt32.ofNat first :: upwards (first + 1) count := by
  unfold upwards
  rw [List.range'_succ, List.map_cons]

theorem run_cons (s : SequenceState) (n : UInt32) (ns : List UInt32) :
    s.run (n :: ns) = (s.update n).run ns := rfl

/-! ## In order -/

/-- A message whose number is one above the highest so far is in order. -/
theorem update_next {s : SequenceState} {last n : UInt32} (h : s.last = some last)
    (hnext : n.toNat = last.toNat + 1) :
    s.update n = { s with last := some n, total := s.total + 1 } := by
  have hlt : last < n := UInt32.lt_iff_toNat_lt.mpr (by omega)
  unfold update
  rw [h]
  dsimp only
  rw [if_pos hlt, show s.lost + ((n.toNat : Int) - last.toNat - 1) = s.lost by omega]

/-- **Messages in order** change nothing but the highest number and the number
of messages. -/
theorem run_upwards {s : SequenceState} {last : UInt32} (h : s.last = some last) {count : Nat}
    (hfits : last.toNat + count < UInt32.size) :
    s.run (upwards (last.toNat + 1) count) =
      { s with last := some (UInt32.ofNat (last.toNat + count)), total := s.total + count } := by
  induction count generalizing s last with
  | zero =>
    show s = { s with last := some (UInt32.ofNat last.toNat) }
    rw [UInt32.ofNat_toNat, ← h]
  | succ count ih =>
    have hn : (UInt32.ofNat (last.toNat + 1)).toNat = last.toNat + 1 :=
      UInt32.toNat_ofNat_of_lt' (by omega)
    have hrest := @ih (s.update (UInt32.ofNat (last.toNat + 1))) (UInt32.ofNat (last.toNat + 1))
    rw [update_next h hn, hn] at hrest
    rw [upwards_succ, run_cons, update_next h hn, hrest rfl (by omega),
      show last.toNat + 1 + count = last.toNat + (count + 1) by omega,
      show s.total + 1 + count = s.total + (count + 1) by omega]

/-! ## Below the highest number -/

/-- **Messages below the highest number are all late**, whatever their order
among themselves, and each takes back a loss. -/
theorem run_of_below {s : SequenceState} {last : UInt32} (h : s.last = some last)
    {ns : List UInt32} (hbelow : ∀ n ∈ ns, n < last) :
    s.run ns = ⟨some last, s.total + ns.length, s.lost - ns.length, s.late + ns.length⟩ := by
  induction ns generalizing s with
  | nil =>
    rw [← h, List.length_nil, Int.natCast_zero, Int.sub_zero]
    rfl
  | cons n ns ih =>
    obtain ⟨hn, hns⟩ := List.forall_mem_cons.mp hbelow
    have hupdate : s.update n = ⟨some last, s.total + 1, s.lost - 1, s.late + 1⟩ := by
      unfold update
      rw [h]
      dsimp only
      rw [if_neg (UInt32.lt_asymm hn), if_pos hn]
    rw [run_cons, hupdate, ih rfl hns, List.length_cons]
    simp only [SequenceState.mk.injEq, true_and]
    omega

/-! ## Wrapping around -/

/-- The numbers from the first to the highest there is. -/
theorem run_upwards_highest (first : UInt32) :
    initial.run (upwards first.toNat (UInt32.size - first.toNat)) =
      ⟨some 0xFFFFFFFF, UInt32.size - first.toNat, 0, 0⟩ := by
  have hfirst := first.toNat_lt_size
  obtain ⟨count, hcount⟩ : ∃ count, UInt32.size - first.toNat = count + 1 :=
    ⟨UInt32.size - first.toNat - 1, by omega⟩
  have hhighest : first.toNat + count = 0xFFFFFFFF := by
    rw [UInt32.size] at *
    omega
  have hsingle : initial.update first = ⟨some first, 1, 0, 0⟩ := rfl
  rw [hcount, upwards_succ, UInt32.ofNat_toNat, run_cons, hsingle,
    run_upwards rfl (by omega), hhighest, Nat.add_comm 1]
  rfl

/-- **Behind the wrap all messages are late.** None of them is in order again,
and none of them was lost. -/
theorem run_wrapping {first last : UInt32} (h : last < first) :
    initial.run (wrapping first last) =
      { last := some 0xFFFFFFFF
        total := UInt32.size - first.toNat + (last.toNat + 1)
        lost := -((last.toNat : Int) + 1)
        late := last.toNat + 1 } := by
  have hfirst := first.toNat_lt
  have hlast : last.toNat < first.toNat := UInt32.lt_iff_toNat_lt.mp h
  have hbelow : ∀ n ∈ upwards 0 (last.toNat + 1), n < 0xFFFFFFFF := by
    intro n hn
    obtain ⟨i, hi, rfl⟩ := List.mem_map.mp hn
    have hlt : i < 0xFFFFFFFF := by
      rw [List.mem_range'_1] at hi
      omega
    rw [UInt32.lt_iff_toNat_lt, UInt32.toNat_ofNat_of_lt' (Nat.lt_succ_of_lt hlt)]
    exact hlt
  have hrun : initial.run (wrapping first last) =
      (initial.run (upwards first.toNat (UInt32.size - first.toNat))).run
        (upwards 0 (last.toNat + 1)) := List.foldl_append
  rw [hrun, run_upwards_highest, run_of_below rfl hbelow, length_upwards]
  simp only [SequenceState.mk.injEq, true_and]
  omega

/-- The shortest run that goes on behind zero. -/
theorem run_wrapping_short :
    wrapping 0xFFFFFFFF 1 = [0xFFFFFFFF, 0, 1] ∧ (1 : UInt32) < 0xFFFFFFFF ∧
      initial.run (wrapping 0xFFFFFFFF 1) = ⟨some 0xFFFFFFFF, 3, -2, 2⟩ :=
  ⟨by decide, by decide, run_wrapping (by decide)⟩

/-- **A wrap does not cost a single late message.** Already the message behind
zero is the second. -/
theorem not_wrapping_single :
    ¬ ∀ first last : UInt32, 0 < first → last < first →
      (initial.run (wrapping first last)).late = 1 ∧
        (initial.run (wrapping first last)).lost = -1 := by
  intro hsingle
  obtain ⟨hlate, -⟩ := hsingle 0xFFFFFFFF 1 (by decide) (by decide)
  exact absurd hlate (by decide)

end FlowTelemetry.SequenceState

import FlowTelemetry.Text.Utf8
import Mathlib.Data.List.Forall2

/-!
# Octets that are characters

That a text survives being written and read back says nothing of octets that were
not written as a text. But even of these a character can come only from its own
octets: what is read as a character, and not as a replacement for something that
is none, is what the character is written with (`Utf8.encodeChar_assemble`). So
what is in a text was in the octets (`Utf8.mem_decode`), and in particular a text
has no NUL in it if the octets have none.

The ranges in which the octets after a lead octet must lie are a table with a row
for each kind of lead octet. `Utf8.Whole` has the same in four cases, one for each
number of octets, which is the form in which the bits of a character are counted.
-/

namespace FlowTelemetry.Utf8

/-- The octet continues a character. -/
def Continues (b : UInt8) : Prop := 0x80 ≤ b.toNat ∧ b.toNat ≤ 0xBF

/-- **The octets of a character**: a lead octet and those after it, by their
number. Behind four of the lead octets the range of the next one is narrower. -/
inductive Whole : UInt8 → Octets → Prop where
  | one {a : UInt8} : a.toNat < 0x80 → Whole a []
  | two {a b : UInt8} : 0xC2 ≤ a.toNat → a.toNat < 0xE0 → Continues b → Whole a [b]
  | three {a b c : UInt8} : 0xE0 ≤ a.toNat → a.toNat < 0xF0 → Continues b → Continues c →
      (a.toNat = 0xE0 → 0xA0 ≤ b.toNat) → (a.toNat = 0xED → b.toNat ≤ 0x9F) → Whole a [b, c]
  | four {a b c d : UInt8} : 0xF0 ≤ a.toNat → a.toNat ≤ 0xF4 → Continues b → Continues c →
      Continues d → (a.toNat = 0xF0 → 0x90 ≤ b.toNat) → (a.toNat = 0xF4 → b.toNat ≤ 0x8F) →
      Whole a [b, c, d]

/-- An octet lies in a range. -/
abbrev Within (r : Range) (b : UInt8) : Prop := r.low ≤ b.toNat ∧ b.toNat ≤ r.high

/-- Octets that fill their ranges lie in them. -/
theorem forall₂_takeRanges {ranges : List Range} {bs : Octets}
    (h : (takeRanges ranges bs).length = ranges.length) :
    List.Forall₂ Within ranges (takeRanges ranges bs) := by
  induction ranges generalizing bs with
  | nil => exact .nil
  | cons r ranges ih =>
    cases bs with
    | nil => exact absurd h (Nat.succ_ne_zero _).symm
    | cons b bs =>
      unfold takeRanges at h ⊢
      split at h
      · next hb =>
        rw [if_pos hb]
        unfold Range.contains at hb
        rw [Bool.and_eq_true, decide_eq_true_eq, decide_eq_true_eq] at hb
        exact .cons hb (ih (Nat.succ.inj h))
      · exact absurd h (Nat.succ_ne_zero _).symm

section Ranges

variable {lead : UInt8} {low high : Nat} {tail : Octets}

theorem Whole.three_of_ranges (hlead : 0xE0 ≤ lead.toNat ∧ lead.toNat < 0xF0)
    (htail : List.Forall₂ Within [⟨low, high⟩, continuation] tail)
    (hrange : 0x80 ≤ low ∧ high ≤ 0xBF) (hfirst : lead.toNat = 0xE0 → 0xA0 ≤ low)
    (hlast : lead.toNat = 0xED → high ≤ 0x9F) : Whole lead tail := by
  obtain _ | ⟨hb, _ | ⟨hc, _ | _⟩⟩ := htail
  exact .three hlead.1 hlead.2 ⟨Nat.le_trans hrange.1 hb.1, Nat.le_trans hb.2 hrange.2⟩ hc
    (fun h => Nat.le_trans (hfirst h) hb.1) (fun h => Nat.le_trans hb.2 (hlast h))

theorem Whole.four_of_ranges (hlead : 0xF0 ≤ lead.toNat ∧ lead.toNat ≤ 0xF4)
    (htail : List.Forall₂ Within [⟨low, high⟩, continuation, continuation] tail)
    (hrange : 0x80 ≤ low ∧ high ≤ 0xBF) (hfirst : lead.toNat = 0xF0 → 0x90 ≤ low)
    (hlast : lead.toNat = 0xF4 → high ≤ 0x8F) : Whole lead tail := by
  obtain _ | ⟨hb, _ | ⟨hc, _ | ⟨hd, _ | _⟩⟩⟩ := htail
  exact .four hlead.1 hlead.2 ⟨Nat.le_trans hrange.1 hb.1, Nat.le_trans hb.2 hrange.2⟩ hc hd
    (fun h => Nat.le_trans (hfirst h) hb.1) (fun h => Nat.le_trans hb.2 (hlast h))

/-- What fills the ranges behind a lead octet makes up a character with it. -/
theorem whole_of_forall₂ {ranges : List Range} (hranges : tailRanges? lead = some ranges)
    (htail : List.Forall₂ Within ranges tail) : Whole lead tail := by
  unfold tailRanges? at hranges
  dsimp only at hranges
  split at hranges
  · next h =>
    cases hranges
    obtain _ | _ := htail
    exact .one h
  split at hranges
  · cases hranges
  split at hranges
  · next h h' =>
    cases hranges
    obtain _ | ⟨hb, _ | _⟩ := htail
    exact .two (Nat.le_of_not_lt h) h' hb
  -- From here on the lead octet narrows the range after it, or it does not.
  iterate 3
    split at hranges
    · cases hranges
      exact .three_of_ranges (by omega) htail (by omega) (by omega) (by omega)
  iterate 3
    split at hranges
    · cases hranges
      exact .four_of_ranges (by omega) htail (by omega) (by omega) (by omega)
  cases hranges

end Ranges

/-- If the bits add up to a valid number, it is that of the character. -/
theorem toNat_assemble {lead : UInt8} {tail : Octets} {n : Nat}
    (hbits : tail.foldl (fun n b => n * 0x40 + b.toNat % 0x40) (leadBits lead tail.length) = n)
    (hvalid : n < 0xD800 ∨ 0xDFFF < n ∧ n < 0x110000) : (assemble lead tail).toNat = n := by
  rw [assemble, hbits, Char.ofNat, dif_pos hvalid]
  rfl

/-- **A character is written with the octets that it was read from.** -/
theorem encodeChar_assemble {lead : UInt8} {tail : Octets} (h : Whole lead tail) :
    encodeChar (assemble lead tail) = lead :: tail := by
  unfold encodeChar
  cases h with
  | one h =>
    rw [toNat_assemble (n := lead.toNat) rfl (by omega)]
    simp only [if_pos h, UInt8.ofNat_toNat]
  | @two b hlow hhigh hb =>
    unfold Continues at hb
    rw [toNat_assemble (n := lead.toNat % 0x20 * 0x40 + b.toNat % 0x40) rfl (by omega)]
    dsimp only
    rw [if_neg (by omega), if_pos (by omega)]
    simp only [List.cons.injEq, and_true, ← UInt8.toNat_inj, UInt8.toNat_ofNat']
    omega
  | @three b c hlow hhigh hb hc hfirst hlast =>
    unfold Continues at hb hc
    rw [toNat_assemble
      (n := (lead.toNat % 0x10 * 0x40 + b.toNat % 0x40) * 0x40 + c.toNat % 0x40) rfl (by omega)]
    dsimp only
    rw [if_neg (by omega), if_neg (by omega), if_pos (by omega)]
    simp only [List.cons.injEq, and_true, ← UInt8.toNat_inj, UInt8.toNat_ofNat']
    omega
  | @four b c d hlow hhigh hb hc hd hfirst hlast =>
    unfold Continues at hb hc hd
    rw [toNat_assemble
      (n := ((lead.toNat % 0x08 * 0x40 + b.toNat % 0x40) * 0x40 + c.toNat % 0x40) * 0x40 +
        d.toNat % 0x40) (by simp [leadBits]) (by omega)]
    dsimp only
    rw [if_neg (by omega), if_neg (by omega), if_neg (by omega)]
    simp only [List.cons.injEq, and_true, ← UInt8.toNat_inj, UInt8.toNat_ofNat']
    omega

theorem isPrefix_takeRanges (ranges : List Range) (bs : Octets) : takeRanges ranges bs <+: bs := by
  induction ranges generalizing bs with
  | nil => exact List.nil_prefix
  | cons r ranges ih =>
    cases bs with
    | nil => exact List.nil_prefix
    | cons b bs =>
      unfold takeRanges
      split
      · exact (List.prefix_cons_inj b).mpr (ih bs)
      · exact List.nil_prefix

/-- **What is in a text was in the octets**, unless it stands for octets that are
not UTF-8. -/
theorem mem_decode {bs : Octets} {c : Char} (h : c ∈ decode bs) :
    c = replacement ∨ encodeChar c <:+: bs := by
  fun_induction decode bs with
  | case1 => exact absurd h List.not_mem_nil
  | case2 lead rest hnone ih =>
    obtain rfl | h := List.mem_cons.mp h
    · exact Or.inl rfl
    · exact (ih h).imp_right fun hpart => hpart.trans (List.suffix_cons lead rest).isInfix
  | case3 lead rest ranges hranges tail c' ih =>
    obtain rfl | h := List.mem_cons.mp h
    · by_cases hlength : tail.length = ranges.length
      · have hwhole := whole_of_forall₂ hranges (forall₂_takeRanges hlength)
        rw [show c' = assemble lead tail from dif_pos hlength, encodeChar_assemble hwhole]
        exact Or.inr ((List.prefix_cons_inj lead).mpr (isPrefix_takeRanges ranges rest)).isInfix
      · exact Or.inl (dif_neg hlength)
    · refine (ih h).imp_right fun hpart => hpart.trans ?_
      exact ((List.drop_suffix tail.length rest).trans (List.suffix_cons lead rest)).isInfix

/-- Without a NUL among the octets there is none in the text. -/
theorem nul_notMem_decode {bs : Octets} (h : 0 ∉ bs) : Char.ofNat 0 ∉ decode bs := by
  intro hmem
  obtain hreplaced | hpart := mem_decode hmem
  · exact absurd hreplaced (by decide)
  · exact h (hpart.subset (List.mem_singleton_self 0))

/-! ## How long a text is -/

/-- **A text takes up at most three octets for each octet that it was read from.**
A character takes up its own octets. A replacement character takes up three, and
stands for one octet at least. -/
theorem length_encode_decode_le (bs : Octets) : (encode (decode bs)).length ≤ 3 * bs.length := by
  have hreplacement : (encodeChar replacement).length = 3 := rfl
  fun_induction decode bs with
  | case1 => exact Nat.le_refl 0
  | case2 lead rest hnone ih =>
    rw [length_encode_cons, List.length_cons]
    omega
  | case3 lead rest ranges hranges tail c ih =>
    have hc : (encodeChar c).length ≤ 3 * (tail.length + 1) := by
      by_cases hlength : tail.length = ranges.length
      · have hwhole := whole_of_forall₂ hranges (forall₂_takeRanges hlength)
        rw [show c = assemble lead tail from dif_pos hlength, encodeChar_assemble hwhole]
        exact Nat.le_mul_of_pos_left (tail.length + 1) (by decide)
      · rw [show c = replacement from dif_neg hlength]
        omega
    have htail : tail.length ≤ rest.length := (isPrefix_takeRanges ranges rest).length_le
    have hrest : (rest.drop tail.length).length = rest.length - tail.length := List.length_drop
    rw [length_encode_cons, List.length_cons]
    generalize tail.length = taken at *
    omega

end FlowTelemetry.Utf8

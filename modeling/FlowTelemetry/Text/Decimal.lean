/-!
# Decimal numbers

Numbers inside texts are decimal: without a sign and without leading zeros,
or padded with zeros to a fixed width. `value?` reads such a number back.
-/

namespace FlowTelemetry.Decimal

/-- The decimal digits of a number, without leading zeros. -/
def digits (n : Nat) : List Char :=
  Nat.toDigits 10 n

/-- The decimal digits of a number, with zeros in front up to the given
width. A longer number keeps all its digits. -/
def padded (width n : Nat) : List Char :=
  let ds := digits n
  List.replicate (width - ds.length) '0' ++ ds

/-- The number that a sequence of decimal digits stands for. There is at
least one digit, and nothing but digits. -/
def value? (cs : List Char) : Option Nat :=
  if cs ≠ [] ∧ cs.all Char.isDigit then
    some (cs.foldl (fun n c => n * 10 + (c.toNat - '0'.toNat)) 0)
  else none

/-- **A number reads back from its digits.** -/
theorem value?_digits (n : Nat) : value? (digits n) = some n := by
  have hdigits : (digits n).all Char.isDigit := List.all_eq_true.mpr fun _ hc =>
    Nat.isDigit_of_mem_toDigits (by decide) (by decide) hc
  have hsum : (digits n).foldl (fun n c => n * 10 + (c.toNat - '0'.toNat)) 0 = n := by
    simp only [Nat.mul_comm _ 10, digits]
    rw [← Nat.ofDigitChars_eq_foldl, Nat.ofDigitChars_toDigits (by decide) (by decide)]
  rw [value?, if_pos ⟨Nat.toDigits_ne_nil, hdigits⟩, hsum]

end FlowTelemetry.Decimal

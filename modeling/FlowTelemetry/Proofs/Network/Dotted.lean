import FlowTelemetry.Network.Address
import FlowTelemetry.Proofs.Octets.Pieces

/-!
# The dotted form of addresses

An address is written as four numbers with dots between them. A number is written
with digits, and a dot is none, so the dots show where the numbers are, however
many digits these have (`Address.pieces_chars`). The numbers read back from their
digits, and the address from the numbers (`Address.parse?_text`).

Reading is more liberal than writing, because a number may also be written with
zeros in front of it.
-/

namespace FlowTelemetry

namespace Address

/-- The characters of the dotted form: digits, and the dot between them. -/
def Dotted (c : Char) : Prop := c.isDigit ∨ c = '.'

instance : DecidablePred Dotted := fun _ => instDecidableOr

/-- The four numbers, as they are written. -/
def numbers (x : Address) : List (List Char) := x.octets.map fun b => Decimal.digits b.toNat

theorem isDigit_of_mem_numbers {x : Address} {number : List Char} (h : number ∈ x.numbers) :
    ∀ c ∈ number, c.isDigit := by
  obtain ⟨b, -, rfl⟩ := List.mem_map.mp h
  exact fun _ => Nat.isDigit_of_mem_toDigits (by decide) (by decide)

theorem chars_eq_intercalate (x : Address) : x.chars = ['.'].intercalate x.numbers := by
  simp [chars, numbers, octets, List.intercalate_cons_cons]

/-- **The dots show where the numbers are.** -/
theorem pieces_chars (x : Address) : pieces '.' x.chars = x.numbers := by
  rw [chars_eq_intercalate]
  refine pieces_intercalate (List.cons_ne_nil _ _) fun number hnumber hdot => ?_
  exact absurd (isDigit_of_mem_numbers hnumber '.' hdot) (by decide)

/-- **Only digits and dots are written.** -/
theorem notMem_chars {c : Char} (h : ¬ Dotted c) (x : Address) : c ∉ x.chars := by
  obtain ⟨hdigit, hdot⟩ := not_or.mp h
  rw [chars_eq_intercalate]
  exact notMem_intercalate hdot fun number hnumber hc =>
    hdigit (isDigit_of_mem_numbers hnumber c hc)

/-! ## Reading the dotted form -/

theorem octet?_digits (b : UInt8) : octet? (Decimal.digits b.toNat) = some b := by
  rw [octet?, Decimal.value?_digits]
  show (if b.toNat < 256 then some (UInt8.ofNat b.toNat) else none) = some b
  rw [if_pos b.toNat_lt, UInt8.ofNat_toNat]

/-- **An address reads back from its dotted form.** -/
theorem parse?_text (x : Address) : parse? x.text = some x := by
  rw [parse?, text, String.toList_ofList, pieces_chars]
  simp only [numbers, octets, List.map_cons, List.map_nil, octet?_digits]
  rfl

end Address

end FlowTelemetry

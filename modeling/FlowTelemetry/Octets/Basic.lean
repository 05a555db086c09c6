/-!
# Octets

Everything this library reads or writes is a sequence of octets: a captured
frame, the datagram inside it, a message on the wire. Numbers in them are
big-endian, and both directions are given here by plain arithmetic, so that
what a number looks like on the wire can be argued about with division and
remainder alone.

Some stretches are padded to whole words of four octets; `wordPadding` is
what that takes. `pieces` cuts a sequence at a separator. It serves octets
cut at NUL as well as text cut at a dot, which is why it asks for nothing but
equality.

The lemmas say that a number survives being written and read back.
-/

namespace FlowTelemetry

/-- Octets in the order in which they are sent. -/
abbrev Octets := List UInt8

namespace Octets

/-- The two octets of a 16 bit number, high half first. -/
def ofUInt16 (n : UInt16) : Octets :=
  [UInt8.ofNat (n.toNat / 0x100), UInt8.ofNat n.toNat]

/-- The four octets of a 32 bit number, highest first. -/
def ofUInt32 (n : UInt32) : Octets :=
  [UInt8.ofNat (n.toNat / 0x1000000), UInt8.ofNat (n.toNat / 0x10000),
   UInt8.ofNat (n.toNat / 0x100), UInt8.ofNat n.toNat]

/-- The 16 bit number with the given octets, high half first. -/
def uint16 (a b : UInt8) : UInt16 :=
  UInt16.ofNat (a.toNat * 0x100 + b.toNat)

/-- The 32 bit number with the given octets, highest first. -/
def uint32 (a b c d : UInt8) : UInt32 :=
  UInt32.ofNat (a.toNat * 0x1000000 + b.toNat * 0x10000 + c.toNat * 0x100 + d.toNat)

/-! ## Reading back what was written -/

theorem uint16_ofUInt16 (n : UInt16) :
    uint16 (UInt8.ofNat (n.toNat / 0x100)) (UInt8.ofNat n.toNat) = n := by
  apply UInt16.toNat_inj.mp
  have := n.toNat_lt
  simp only [uint16, UInt16.toNat_ofNat', UInt8.toNat_ofNat']
  omega

theorem uint32_ofUInt32 (n : UInt32) :
    uint32 (UInt8.ofNat (n.toNat / 0x1000000)) (UInt8.ofNat (n.toNat / 0x10000))
      (UInt8.ofNat (n.toNat / 0x100)) (UInt8.ofNat n.toNat) = n := by
  apply UInt32.toNat_inj.mp
  have := n.toNat_lt
  simp only [uint32, UInt32.toNat_ofNat', UInt8.toNat_ofNat']
  omega

/-- Two octets are the written form of the number they stand for. -/
theorem ofUInt16_uint16 (a b : UInt8) : ofUInt16 (uint16 a b) = [a, b] := by
  have ha := a.toNat_lt
  have hb := b.toNat_lt
  simp only [ofUInt16, uint16, UInt16.toNat_ofNat', List.cons.injEq, and_true,
    ← UInt8.toNat_inj, UInt8.toNat_ofNat']
  omega

/-- Four octets are the written form of the number they stand for. -/
theorem ofUInt32_uint32 (a b c d : UInt8) : ofUInt32 (uint32 a b c d) = [a, b, c, d] := by
  have ha := a.toNat_lt
  have hb := b.toNat_lt
  have hc := c.toNat_lt
  have hd := d.toNat_lt
  simp only [ofUInt32, uint32, UInt32.toNat_ofNat', List.cons.injEq, and_true,
    ← UInt8.toNat_inj, UInt8.toNat_ofNat']
  omega

/-! ## Lengths -/

@[simp] theorem length_ofUInt16 (n : UInt16) : (ofUInt16 n).length = 2 := rfl

@[simp] theorem length_ofUInt32 (n : UInt32) : (ofUInt32 n).length = 4 := rfl

/-! ## Padding -/

/-- The zeros that bring `n` octets to a multiple of four. -/
def wordPadding (n : Nat) : Octets := List.replicate ((4 - n % 4) % 4) 0

/-! ## Taking octets off the front -/

/-- The first `n` octets and those after them, if there are that many. Only
the octets that are taken are looked at. -/
def split? : Nat → Octets → Option (Octets × Octets)
  | 0, bs => some ([], bs)
  | _ + 1, [] => none
  | n + 1, b :: bs =>
    match split? n bs with
    | some (first, rest) => some (b :: first, rest)
    | none => none

/-- Taking octets off the front cuts the sequence in two. -/
theorem split?_eq_some_iff {n : Nat} {bs first rest : Octets} :
    split? n bs = some (first, rest) ↔ bs = first ++ rest ∧ first.length = n := by
  induction n generalizing bs first with
  | zero =>
    simp only [split?, Option.some.injEq, Prod.mk.injEq, List.length_eq_zero_iff]
    constructor
    · rintro ⟨rfl, rfl⟩
      simp
    · rintro ⟨rfl, rfl⟩
      simp
  | succ n ih =>
    cases bs with
    | nil =>
      simp only [split?, reduceCtorEq, false_iff, not_and]
      intro h hlength
      simp [(List.nil_eq_append_iff.mp h).1] at hlength
    | cons b bs =>
      simp only [split?]
      cases first with
      | nil => split <;> simp
      | cons f first =>
        have step := @ih bs first
        split <;> simp_all [and_assoc]

/-- It fails exactly if there are too few. -/
theorem split?_eq_none_iff {n : Nat} {bs : Octets} :
    split? n bs = none ↔ bs.length < n := by
  induction n generalizing bs with
  | zero => simp [split?]
  | succ n ih =>
    cases bs with
    | nil => simp [split?]
    | cons b bs =>
      have step := @ih bs
      simp only [split?, List.length_cons]
      split <;> simp_all

theorem length_of_split? {n : Nat} {bs first rest : Octets}
    (h : split? n bs = some (first, rest)) : n + rest.length = bs.length := by
  obtain ⟨rfl, rfl⟩ := split?_eq_some_iff.mp h
  simp

/-- The octets after the first `n`, if there are that many. Nothing is kept of
the octets that are gone past. -/
def drop? : Nat → Octets → Option Octets
  | 0, bs => some bs
  | _ + 1, [] => none
  | n + 1, _ :: bs => drop? n bs

end Octets

/-! ## Cutting at a separator -/

/-- The stretches between separators. A sequence without a separator is one
stretch, and so is the empty sequence, so there is always one stretch more
than there are separators. -/
def pieces {α : Type} [DecidableEq α] (separator : α) : List α → List (List α)
  | [] => [[]]
  | a :: rest =>
    if a = separator then [] :: pieces separator rest
    else match pieces separator rest with
      | [] => [[a]]
      | first :: others => (a :: first) :: others

theorem pieces_ne_nil {α : Type} [DecidableEq α] (separator : α) (as : List α) :
    pieces separator as ≠ [] := by
  cases as with
  | nil => simp [pieces]
  | cons a rest =>
    simp only [pieces]
    split
    · simp
    · split <;> simp

/-- There is one stretch more than there are separators. -/
theorem length_pieces {α : Type} [DecidableEq α] (separator : α) (as : List α) :
    (pieces separator as).length = as.count separator + 1 := by
  induction as with
  | nil => rfl
  | cons a rest ih =>
    simp only [pieces]
    split
    · next h => simp [h, ih]
    · next h =>
      split
      · next hnil => exact absurd hnil (pieces_ne_nil separator rest)
      · next hcons => simp_all

end FlowTelemetry

import FlowTelemetry.Octets.Basic

/-!
# Text as octets

A name is a text, and on the wire it is the UTF-8 form of that text.

Writing is `encode`, one to four octets per character. Reading is `decode`,
and it never fails: a sender may put any octets into a name, and what is not
UTF-8 reads as the replacement character U+FFFD.

How many replacement characters a broken stretch becomes is a convention.
The one followed here replaces *maximal subparts*: as many octets as could
still be the beginning of some character are replaced together, by one
character, and an octet that can begin nothing is replaced alone. It takes a
table of the ranges in which the octets after a lead octet must lie
(`tailRanges?`), and nothing more, because a stretch is cut short exactly
where the next octet leaves its range. The narrowed ranges after E0, ED, F0
and F4 are what keeps overlong forms, surrogates and values above U+10FFFF
out.
-/

namespace FlowTelemetry.Utf8

/-- The character that stands for octets that are not UTF-8. -/
def replacement : Char := Char.ofNat 0xFFFD

/-- The octets of a character. -/
def encodeChar (c : Char) : Octets :=
  let n := c.toNat
  if n < 0x80 then [UInt8.ofNat n]
  else if n < 0x800 then [UInt8.ofNat (0xC0 + n / 0x40), UInt8.ofNat (0x80 + n % 0x40)]
  else if n < 0x10000 then
    [UInt8.ofNat (0xE0 + n / 0x1000), UInt8.ofNat (0x80 + n / 0x40 % 0x40),
     UInt8.ofNat (0x80 + n % 0x40)]
  else
    [UInt8.ofNat (0xF0 + n / 0x40000), UInt8.ofNat (0x80 + n / 0x1000 % 0x40),
     UInt8.ofNat (0x80 + n / 0x40 % 0x40), UInt8.ofNat (0x80 + n % 0x40)]

/-- The octets of a text. -/
def encode (cs : List Char) : Octets :=
  cs.flatMap encodeChar

/-- A range of octets, both ends included. -/
structure Range where
  low : Nat
  high : Nat

/-- Whether an octet lies in a range. -/
def Range.contains (r : Range) (b : UInt8) : Bool :=
  r.low ≤ b.toNat && b.toNat ≤ r.high

/-- The range of an octet that continues a character. -/
def continuation : Range := ⟨0x80, 0xBF⟩

/-- The ranges of the octets that follow a lead octet in a character, or
nothing if no character begins with the octet. -/
def tailRanges? (lead : UInt8) : Option (List Range) :=
  let n := lead.toNat
  if n < 0x80 then some []
  else if n < 0xC2 then none
  else if n < 0xE0 then some [continuation]
  else if n = 0xE0 then some [⟨0xA0, 0xBF⟩, continuation]
  else if n = 0xED then some [⟨0x80, 0x9F⟩, continuation]
  else if n < 0xF0 then some [continuation, continuation]
  else if n = 0xF0 then some [⟨0x90, 0xBF⟩, continuation, continuation]
  else if n < 0xF4 then some [continuation, continuation, continuation]
  else if n = 0xF4 then some [⟨0x80, 0x8F⟩, continuation, continuation]
  else none

/-- The first octets as far as they lie in the given ranges, one after the
other. -/
def takeRanges : List Range → Octets → Octets
  | r :: ranges, b :: rest => if r.contains b then b :: takeRanges ranges rest else []
  | _, _ => []

/-- The bits of the character's number that its lead octet holds, as a
number. With `n` octets to follow, the lead octet begins with `n + 1` ones
and a zero, or with a zero alone if there are none to follow. -/
def leadBits (lead : UInt8) (follow : Nat) : Nat :=
  match follow with
  | 0 => lead.toNat
  | n + 1 => lead.toNat % (0x20 >>> n)

/-- The character with the given lead octet and the octets after it. -/
def assemble (lead : UInt8) (tail : Octets) : Char :=
  Char.ofNat (tail.foldl (fun n b => n * 0x40 + b.toNat % 0x40) (leadBits lead tail.length))

/-- The text of a sequence of octets, with a replacement character for each
maximal subpart that is not UTF-8. -/
def decode : Octets → List Char
  | [] => []
  | lead :: rest =>
    match tailRanges? lead with
    | none => replacement :: decode rest
    | some ranges =>
      let tail := takeRanges ranges rest
      let c := if tail.length = ranges.length then assemble lead tail else replacement
      c :: decode (rest.drop tail.length)
termination_by bs => bs.length

/-- The text of a sequence of octets. -/
def text (bs : Octets) : String := String.ofList (decode bs)

/-- The octets of a text. -/
def octets (s : String) : Octets := encode s.toList

theorem length_encode_cons (c : Char) (cs : List Char) :
    (encode (c :: cs)).length = (encodeChar c).length + (encode cs).length :=
  List.length_append

/-! ## Reading back what was written -/

/-- The number of a character is below the surrogates or above them. -/
theorem toNat_cases (c : Char) :
    c.toNat < 0xD800 ∨ (0xDFFF < c.toNat ∧ c.toNat < 0x110000) := by
  have h := c.valid
  simpa [UInt32.isValidChar, Nat.isValidChar] using h

/-- A lead octet and a tail that fills its ranges read as one character. -/
theorem decode_of_takeRanges {lead : UInt8} {ranges : List Range} {tail rest : Octets}
    (hranges : tailRanges? lead = some ranges)
    (htail : takeRanges ranges (tail ++ rest) = tail) (hlength : tail.length = ranges.length) :
    decode (lead :: (tail ++ rest)) = assemble lead tail :: decode rest := by
  rw [decode, hranges]
  simp [htail, hlength.symm]

theorem takeRanges_cons {r : Range} {ranges : List Range} {b : UInt8} {tail rest : Octets}
    (h : r.low ≤ b.toNat ∧ b.toNat ≤ r.high)
    (htail : takeRanges ranges (tail ++ rest) = tail) :
    takeRanges (r :: ranges) (b :: tail ++ rest) = b :: tail := by
  simp [takeRanges, Range.contains, h.1, h.2, htail]

theorem takeRanges_nil (rest : Octets) : takeRanges [] ([] ++ rest) = [] := rfl

/-- Whatever follows, the octets of a character read as that character. -/
theorem decode_encodeChar (c : Char) (rest : Octets) :
    decode (encodeChar c ++ rest) = c :: decode rest := by
  have valid := toNat_cases c
  have whole : ∀ {m : Nat}, m = c.toNat → Char.ofNat m = c := fun h => h ▸ Char.ofNat_toNat c
  -- It is enough to find the ranges, to see the tail inside them, and to add up the bits.
  have key : ∀ (lead : UInt8) (ranges : List Range) (tail : Octets),
      tailRanges? lead = some ranges → takeRanges ranges (tail ++ rest) = tail →
      tail.length = ranges.length → assemble lead tail = c →
      decode (lead :: (tail ++ rest)) = c :: decode rest := by
    intro lead ranges tail h1 h2 h3 h4
    rw [decode_of_takeRanges h1 h2 h3, h4]
  unfold encodeChar
  generalize hn : c.toNat = n at valid whole
  by_cases h1 : n < 0x80
  · simp only [h1, if_true]
    refine key _ [] [] ?_ (takeRanges_nil rest) rfl (whole ?_)
    · simp only [tailRanges?, UInt8.toNat_ofNat']
      rw [if_pos (by omega)]
    · simp only [leadBits, List.length_nil, List.foldl_nil, UInt8.toNat_ofNat']
      omega
  by_cases h2 : n < 0x800
  · simp only [h1, h2, if_true, if_false]
    refine key _ [continuation] [_] ?_ (takeRanges_cons ?_ (takeRanges_nil rest)) rfl (whole ?_)
    · simp only [tailRanges?, UInt8.toNat_ofNat']
      rw [if_neg (by omega), if_neg (by omega), if_pos (by omega)]
    · simp only [continuation, UInt8.toNat_ofNat']
      omega
    · simp only [leadBits, Nat.shiftRight_eq_div_pow, List.length_cons, List.length_nil,
        List.foldl_cons, List.foldl_nil, UInt8.toNat_ofNat']
      omega
  by_cases h3 : n < 0x10000
  · simp only [h1, h2, h3, if_true, if_false]
    -- The lead octets E0 and ED narrow the range of the octet after them.
    have sum : assemble (UInt8.ofNat (0xE0 + n / 0x1000))
        [UInt8.ofNat (0x80 + n / 0x40 % 0x40), UInt8.ofNat (0x80 + n % 0x40)] = c := by
      refine whole ?_
      simp only [leadBits, Nat.shiftRight_eq_div_pow, List.length_cons, List.length_nil,
        List.foldl_cons, List.foldl_nil, UInt8.toNat_ofNat']
      omega
    have last : continuation.low ≤ (UInt8.ofNat (0x80 + n % 0x40)).toNat ∧
        (UInt8.ofNat (0x80 + n % 0x40)).toNat ≤ continuation.high := by
      simp only [continuation, UInt8.toNat_ofNat']
      omega
    by_cases he0 : n / 0x1000 = 0
    · refine key _ [⟨0xA0, 0xBF⟩, continuation] [_, _] ?_
        (takeRanges_cons ?_ (takeRanges_cons last (takeRanges_nil rest))) rfl sum
      · simp only [tailRanges?, UInt8.toNat_ofNat']
        rw [if_neg (by omega), if_neg (by omega), if_neg (by omega), if_pos (by omega)]
      · simp only [UInt8.toNat_ofNat']
        omega
    by_cases hed : n / 0x1000 = 0xD
    · refine key _ [⟨0x80, 0x9F⟩, continuation] [_, _] ?_
        (takeRanges_cons ?_ (takeRanges_cons last (takeRanges_nil rest))) rfl sum
      · simp only [tailRanges?, UInt8.toNat_ofNat']
        rw [if_neg (by omega), if_neg (by omega), if_neg (by omega), if_neg (by omega),
          if_pos (by omega)]
      · simp only [UInt8.toNat_ofNat']
        omega
    · refine key _ [continuation, continuation] [_, _] ?_
        (takeRanges_cons ?_ (takeRanges_cons last (takeRanges_nil rest))) rfl sum
      · simp only [tailRanges?, UInt8.toNat_ofNat']
        rw [if_neg (by omega), if_neg (by omega), if_neg (by omega), if_neg (by omega),
          if_neg (by omega), if_pos (by omega)]
      · simp only [continuation, UInt8.toNat_ofNat']
        omega
  · simp only [h1, h2, h3, if_false]
    -- The lead octets F0 and F4 do the same.
    have sum : assemble (UInt8.ofNat (0xF0 + n / 0x40000))
        [UInt8.ofNat (0x80 + n / 0x1000 % 0x40), UInt8.ofNat (0x80 + n / 0x40 % 0x40),
         UInt8.ofNat (0x80 + n % 0x40)] = c := by
      refine whole ?_
      simp only [leadBits, Nat.shiftRight_eq_div_pow, List.length_cons, List.length_nil,
        List.foldl_cons, List.foldl_nil, UInt8.toNat_ofNat']
      omega
    have last : continuation.low ≤ (UInt8.ofNat (0x80 + n % 0x40)).toNat ∧
        (UInt8.ofNat (0x80 + n % 0x40)).toNat ≤ continuation.high := by
      simp only [continuation, UInt8.toNat_ofNat']
      omega
    have middle : continuation.low ≤ (UInt8.ofNat (0x80 + n / 0x40 % 0x40)).toNat ∧
        (UInt8.ofNat (0x80 + n / 0x40 % 0x40)).toNat ≤ continuation.high := by
      simp only [continuation, UInt8.toNat_ofNat']
      omega
    have tail := takeRanges_cons middle (takeRanges_cons last (takeRanges_nil rest))
    by_cases hf0 : n / 0x40000 = 0
    · refine key _ [⟨0x90, 0xBF⟩, continuation, continuation] [_, _, _] ?_
        (takeRanges_cons ?_ tail) rfl sum
      · simp only [tailRanges?, UInt8.toNat_ofNat']
        rw [if_neg (by omega), if_neg (by omega), if_neg (by omega), if_neg (by omega),
          if_neg (by omega), if_neg (by omega), if_pos (by omega)]
      · simp only [UInt8.toNat_ofNat']
        omega
    by_cases hf4 : n / 0x40000 = 4
    · refine key _ [⟨0x80, 0x8F⟩, continuation, continuation] [_, _, _] ?_
        (takeRanges_cons ?_ tail) rfl sum
      · simp only [tailRanges?, UInt8.toNat_ofNat']
        rw [if_neg (by omega), if_neg (by omega), if_neg (by omega), if_neg (by omega),
          if_neg (by omega), if_neg (by omega), if_neg (by omega), if_neg (by omega),
          if_pos (by omega)]
      · simp only [UInt8.toNat_ofNat']
        omega
    · refine key _ [continuation, continuation, continuation] [_, _, _] ?_
        (takeRanges_cons ?_ tail) rfl sum
      · simp only [tailRanges?, UInt8.toNat_ofNat']
        rw [if_neg (by omega), if_neg (by omega), if_neg (by omega), if_neg (by omega),
          if_neg (by omega), if_neg (by omega), if_neg (by omega), if_pos (by omega)]
      · simp only [continuation, UInt8.toNat_ofNat']
        omega

/-- A text survives being written and read back. -/
theorem decode_encode (cs : List Char) : decode (encode cs) = cs := by
  induction cs with
  | nil => simp [encode, decode]
  | cons c rest ih =>
    rw [encode, List.flatMap_cons, decode_encodeChar]
    exact congrArg (c :: ·) ih

theorem text_octets (s : String) : text (octets s) = s := by
  simp [text, octets, decode_encode]

end FlowTelemetry.Utf8

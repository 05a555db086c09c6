import FlowTelemetry.Octets.Basic

/-!
# Hex digits

Octets shown to a person are written as two lower case hex digits each, high
half first, with nothing between them. The digits of an octet are looked up in
a table. That there is no slip in it is `alphabet_toList`, after which it is
not looked into any more. `decode?` reads such a text back, so no two sequences
of octets are shown alike (`decode?_encode`).

A long sequence is shown as an *excerpt*: its first octets and then three
dots, which stand for at least one octet that is not shown (`excerpt_eq`).
-/

namespace FlowTelemetry.Hex

/-- The hex digit for a number below sixteen. -/
def digit (n : Nat) : Char :=
  if n < 10 then Char.ofNat ('0'.toNat + n) else Char.ofNat ('a'.toNat + (n - 10))

/-- The number a lower case hex digit stands for. -/
def value? (c : Char) : Option Nat :=
  if '0' ≤ c ∧ c ≤ '9' then some (c.toNat - '0'.toNat)
  else if 'a' ≤ c ∧ c ≤ 'f' then some (c.toNat - 'a'.toNat + 10)
  else none

set_option maxRecDepth 2000 in
/-- The digits of every octet. -/
def alphabet : Vector String 256 :=
  #v[
    "00", "01", "02", "03", "04", "05", "06", "07", "08", "09", "0a", "0b", "0c", "0d", "0e", "0f",
    "10", "11", "12", "13", "14", "15", "16", "17", "18", "19", "1a", "1b", "1c", "1d", "1e", "1f",
    "20", "21", "22", "23", "24", "25", "26", "27", "28", "29", "2a", "2b", "2c", "2d", "2e", "2f",
    "30", "31", "32", "33", "34", "35", "36", "37", "38", "39", "3a", "3b", "3c", "3d", "3e", "3f",
    "40", "41", "42", "43", "44", "45", "46", "47", "48", "49", "4a", "4b", "4c", "4d", "4e", "4f",
    "50", "51", "52", "53", "54", "55", "56", "57", "58", "59", "5a", "5b", "5c", "5d", "5e", "5f",
    "60", "61", "62", "63", "64", "65", "66", "67", "68", "69", "6a", "6b", "6c", "6d", "6e", "6f",
    "70", "71", "72", "73", "74", "75", "76", "77", "78", "79", "7a", "7b", "7c", "7d", "7e", "7f",
    "80", "81", "82", "83", "84", "85", "86", "87", "88", "89", "8a", "8b", "8c", "8d", "8e", "8f",
    "90", "91", "92", "93", "94", "95", "96", "97", "98", "99", "9a", "9b", "9c", "9d", "9e", "9f",
    "a0", "a1", "a2", "a3", "a4", "a5", "a6", "a7", "a8", "a9", "aa", "ab", "ac", "ad", "ae", "af",
    "b0", "b1", "b2", "b3", "b4", "b5", "b6", "b7", "b8", "b9", "ba", "bb", "bc", "bd", "be", "bf",
    "c0", "c1", "c2", "c3", "c4", "c5", "c6", "c7", "c8", "c9", "ca", "cb", "cc", "cd", "ce", "cf",
    "d0", "d1", "d2", "d3", "d4", "d5", "d6", "d7", "d8", "d9", "da", "db", "dc", "dd", "de", "df",
    "e0", "e1", "e2", "e3", "e4", "e5", "e6", "e7", "e8", "e9", "ea", "eb", "ec", "ed", "ee", "ef",
    "f0", "f1", "f2", "f3", "f4", "f5", "f6", "f7", "f8", "f9", "fa", "fb", "fc", "fd", "fe", "ff"]

/-- The two digits of an octet. -/
def octet (b : UInt8) : List Char :=
  (alphabet.get ⟨b.toNat, b.toNat_lt⟩).toList

/-- The digits of a sequence of octets. -/
def encode (bs : Octets) : List Char :=
  bs.flatMap octet

/-- The octets whose digits these are. -/
def decode? : List Char → Option Octets
  | [] => some []
  | [_] => none
  | high :: low :: rest => do
    let h ← value? high
    let l ← value? low
    let bs ← decode? rest
    return UInt8.ofNat (h * 16 + l) :: bs

/-- The digits of a sequence of octets as text. -/
def text (bs : Octets) : String :=
  String.ofList (encode bs)

/-- The first `n` octets, if there are that many. -/
def first? (n : Nat) (bs : Octets) : Option Octets :=
  if n ≤ bs.length then some (bs.take n) else none

/-- The text of at most `limit` octets, and three dots if there are more. -/
def excerpt (bs : Octets) (limit : Nat) : String :=
  match first? limit bs with
  | some head => if head.length < bs.length then text head ++ "..." else text bs
  | none => text bs

/-- There are dots if something is left out, and only then. -/
theorem excerpt_eq (bs : Octets) (limit : Nat) :
    excerpt bs limit =
      if limit < bs.length then text (bs.take limit) ++ "..." else text bs := by
  unfold excerpt first?
  by_cases h : limit ≤ bs.length
  · rw [if_pos h]
    dsimp only
    rw [List.length_take_of_le h]
  · rw [if_neg h, if_neg fun hlt => h (Nat.le_of_lt hlt)]

/-! ## The table -/

/-- The digits of a number below 256, high half first. -/
def digitsOf (n : Nat) : List Char := [digit (n / 16), digit (n % 16)]

set_option maxRecDepth 4000 in
/-- **The table holds the digits of every octet**, each in its place. -/
theorem alphabet_toList :
    alphabet.toList = (List.range 256).map fun n => String.ofList (digitsOf n) :=
  rfl

theorem octet_eq (b : UInt8) : octet b = digitsOf b.toNat := by
  have hentry : alphabet.toList[b.toNat]? = some (String.ofList (digitsOf b.toNat)) := by
    rw [alphabet_toList, List.getElem?_map, List.getElem?_range b.toNat_lt]
    rfl
  rw [Vector.getElem?_toList, Vector.getElem?_eq_some_iff] at hentry
  obtain ⟨_, hentry⟩ := hentry
  exact (congrArg String.toList hentry).trans String.toList_ofList

/-! ## Reading digits back -/

theorem value?_digit {n : Nat} (small : n < 16) : value? (digit n) = some n := by
  have all : ∀ n : Fin 16, value? (digit n) = some n.val := by decide
  exact all ⟨n, small⟩

/-- The digits of octets read back as these octets. -/
theorem decode?_encode (bs : Octets) : decode? (encode bs) = some bs := by
  induction bs with
  | nil => rfl
  | cons b rest ih =>
    have ih' : decode? (List.flatMap octet rest) = some rest := ih
    have hb := b.toNat_lt
    -- An octet is its high half times sixteen plus its low half.
    have whole : UInt8.ofNat (b.toNat / 16 * 16 + b.toNat % 16) = b := by
      rw [show b.toNat / 16 * 16 + b.toNat % 16 = b.toNat by omega, UInt8.ofNat_toNat]
    simp only [encode, octet_eq, digitsOf, List.flatMap_cons, List.cons_append, List.nil_append,
      decode?, value?_digit (show b.toNat / 16 < 16 by omega),
      value?_digit (show b.toNat % 16 < 16 by omega), ih', Option.bind_eq_bind,
      Option.bind_some, Option.pure_def, whole]

theorem length_encode (bs : Octets) : (encode bs).length = 2 * bs.length := by
  induction bs with
  | nil => rfl
  | cons b rest ih =>
    have ih' : (List.flatMap octet rest).length = 2 * rest.length := ih
    have htwo : (octet b).length = 2 := by
      rw [octet_eq]
      rfl
    simp only [encode, List.flatMap_cons, List.length_append, ih', List.length_cons, htwo]
    omega

end FlowTelemetry.Hex

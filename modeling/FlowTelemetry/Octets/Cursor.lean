import FlowTelemetry.Octets.Basic

/-!
# Reading octets

A `Cursor` is a place in a sequence of octets: how many octets lie before it
and which ones follow. The elementary reads take a fixed number of octets off
the front and yield nothing if too few are left, in which case the reader has
no new cursor to go on with and stays where it was.

A `Reader` is a computation that moves a cursor. Both its success and its
failure carry the cursor it ends with, because where a failed reader stands
is part of what it reports. `Reader.field` makes one out of an elementary
read: it names the field, and a failure is located at the start of the field.

The lemmas say that the elementary reads give back what was written.
-/

namespace FlowTelemetry

/-- A place in a sequence of octets. -/
structure Cursor where
  /-- How many octets lie before the place. -/
  position : Nat
  /-- The octets from the place on. -/
  rest : Octets
  deriving DecidableEq, Repr

namespace Cursor

/-- The place before the first octet. -/
def start (bs : Octets) : Cursor := ⟨0, bs⟩

/-- The number of octets that are left. -/
def remaining (c : Cursor) : Nat := c.rest.length

/-- The next `n` octets and the place after them. -/
def take? (n : Nat) (c : Cursor) : Option (Octets × Cursor) :=
  match Octets.split? n c.rest with
  | some (first, rest) => some (first, ⟨c.position + n, rest⟩)
  | none => none

/-- The place `n` octets further on. -/
def advance? (n : Nat) (c : Cursor) : Option Cursor :=
  (Octets.drop? n c.rest).map fun rest => ⟨c.position + n, rest⟩

/-- The next octet. -/
def u8? : Cursor → Option (UInt8 × Cursor)
  | ⟨position, a :: rest⟩ => some (a, ⟨position + 1, rest⟩)
  | _ => none

/-- The next two octets as a number. -/
def u16? : Cursor → Option (UInt16 × Cursor)
  | ⟨position, a :: b :: rest⟩ => some (Octets.uint16 a b, ⟨position + 2, rest⟩)
  | _ => none

/-- The next four octets as a number. -/
def u32? : Cursor → Option (UInt32 × Cursor)
  | ⟨position, a :: b :: c :: d :: rest⟩ =>
    some (Octets.uint32 a b c d, ⟨position + 4, rest⟩)
  | _ => none

/-! ## Reading what was written -/

theorem u16?_ofUInt16 (position : Nat) (n : UInt16) (rest : Octets) :
    u16? ⟨position, Octets.ofUInt16 n ++ rest⟩ = some (n, ⟨position + 2, rest⟩) := by
  rw [Octets.ofUInt16, List.cons_append, List.cons_append, List.nil_append, u16?,
    Octets.uint16_ofUInt16]

theorem u32?_ofUInt32 (position : Nat) (n : UInt32) (rest : Octets) :
    u32? ⟨position, Octets.ofUInt32 n ++ rest⟩ = some (n, ⟨position + 4, rest⟩) := by
  rw [Octets.ofUInt32, List.cons_append, List.cons_append, List.cons_append, List.cons_append,
    List.nil_append, u32?, Octets.uint32_ofUInt32]

end Cursor

/-- A computation that moves a cursor and may fail with an `ε`. -/
abbrev Reader (ε α : Type) := EStateM ε Cursor α

namespace Reader

/-- Reads one field. If too few octets are left for it, the cursor stays at
the start of the field and `short` says, given that position, what failed. -/
def field {ε α : Type} (read : Cursor → Option (α × Cursor)) (short : Nat → ε) : Reader ε α :=
  fun c => match read c with
    | some (a, after) => .ok a after
    | none => .error (short c.position) c

/-- Reads the same thing `n` times. -/
def times {ε α : Type} (n : Nat) (read : Reader ε α) : Reader ε (List α) :=
  match n with
  | 0 => pure []
  | n + 1 => do
    let a ← read
    let more ← times n read
    return a :: more

/-- Reads from the start of a sequence of octets and forgets the place reached. -/
def run {ε α : Type} (read : Reader ε α) (bs : Octets) : Except ε α :=
  match EStateM.run read (Cursor.start bs) with
  | .ok a _ => .ok a
  | .error e _ => .error e

end Reader

end FlowTelemetry

import FlowTelemetry.Octets.Basic
import FlowTelemetry.Wire.Fault

/-!
# Writing octets

A `Buffer` holds what has been written so far and, possibly, a limit to how
far it may grow. Writing is done by *appends*: an append either adds all its
octets or, if the buffer would exceed its limit, fails and adds none.

A `Writer` is a computation on a buffer. A failed writer leaves what its
appends had added before the failure, with one exception: `lengthPrefixed`
goes back to where it began. It has to, because its first two octets are a
placeholder for a length that is known only when everything after it has
been written, and a placeholder left behind would read as the length zero.

`Buffer.contents` is the view through which a buffer is reasoned about. The
lemmas at the end say what each operation does to it.
-/

namespace FlowTelemetry

/-- What has been written, and how far it may grow. -/
structure Buffer where
  /-- The octets written so far. -/
  octets : Array UInt8
  /-- The greatest number of octets, if there is one. -/
  limit : Option Nat

namespace Buffer

/-- A buffer with nothing in it. -/
def empty (limit : Option Nat) : Buffer := ⟨#[], limit⟩

/-- The number of octets written so far. -/
def size (b : Buffer) : Nat := b.octets.size

/-- The octets written so far as a sequence. -/
def contents (b : Buffer) : Octets := b.octets.toList

/-- The octets written since there were `n` of them. -/
def since (b : Buffer) (n : Nat) : Octets := (b.octets.extract n b.size).toList

/-- Whether the buffer may hold `n` octets in all. -/
def admits (b : Buffer) (n : Nat) : Bool :=
  match b.limit with
  | none => true
  | some limit => n ≤ limit

/-- Forgets all octets but the first `n`. -/
def truncate (b : Buffer) (n : Nat) : Buffer := { b with octets := b.octets.shrink n }

/-- Puts a 16 bit number over the two octets at index `i`. -/
def patch (b : Buffer) (i : Nat) (n : UInt16) : Buffer :=
  { b with
    octets := (b.octets.setIfInBounds i (UInt8.ofNat (n.toNat / 0x100))).setIfInBounds
      (i + 1) (UInt8.ofNat n.toNat) }

end Buffer

/-- A computation that adds octets to a buffer and may fail. -/
abbrev Writer (α : Type) := EStateM EncodeError Buffer α

namespace Writer

/-- Adds all the octets, or none of them if the limit forbids it. -/
def append (bs : Octets) : Writer Unit := fun b =>
  if b.admits (b.size + bs.length) then .ok () { b with octets := b.octets ++ bs }
  else .error .shortBuffer b

/-- The number of octets in the buffer. -/
def position : Writer Nat := fun b => .ok b.size b

/-- Adds as many zero octets as make the number of octets from `start` on a
multiple of four. A `start` beyond the end counts as the end. -/
def padToWord (start : Nat) : Writer Unit := do
  let here ← position
  append (Octets.wordPadding (here - start))

/-- The greatest length a length field can hold. -/
def maxFieldLength : Nat := 0xFFFF

/-- Adds a 16 bit length and then what `op` adds, of which it is the length.
On any failure the buffer is what it was before. -/
def lengthPrefixed (op : Writer Unit) : Writer Unit := fun b =>
  let start := b.size
  let framed : Writer Unit := do
    append [0, 0]
    op
  match framed b with
  | .error e after => .error e (after.truncate start)
  | .ok () after =>
    let length := after.size - (start + 2)
    if length ≤ maxFieldLength then .ok () (after.patch start (UInt16.ofNat length))
    else .error .longData (after.truncate start)

/-- What is written into an empty buffer without a limit. -/
def toOctets (w : Writer Unit) : Except EncodeError Octets :=
  match w (Buffer.empty none) with
  | .ok () b => .ok b.contents
  | .error e _ => .error e

end Writer

/-! ## What the operations do to the contents -/

namespace Buffer

@[simp] theorem contents_empty (limit : Option Nat) : (empty limit).contents = [] := rfl

theorem length_contents (b : Buffer) : b.contents.length = b.size := by
  simp [contents, size]

theorem contents_truncate (b : Buffer) (n : Nat) :
    (b.truncate n).contents = b.contents.take n := by
  simp [truncate, contents]

/-- A patch replaces two octets that are there and moves nothing. -/
theorem contents_patch (b : Buffer) (before : Octets) (x y : UInt8) (after : Octets)
    (n : UInt16) (h : b.contents = before ++ x :: y :: after) :
    (b.patch before.length n).contents = before ++ Octets.ofUInt16 n ++ after := by
  simp only [contents] at h
  simp [patch, contents, h, Octets.ofUInt16]

end Buffer

end FlowTelemetry

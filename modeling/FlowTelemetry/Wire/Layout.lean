import FlowTelemetry.Wire.Message

/-!
# Layouts

A `Layout` is a list of things to be written one after the other: numbers,
addresses, octets as they are, padding, names, whole messages and their
parts, and, with its length in front, another layout. Layouts nest to any
depth.

Writing a layout stops at the first item that fails. What the items before
it have written stays, unless a length was to be put in front of them.

A layout is data where a `Writer` is a function, so a statement about all
that can be written this way can be proved by induction.
-/

namespace FlowTelemetry

/-- Something to be written. -/
inductive Layout.Item where
  | octets (bs : Octets)
  | u8 (n : UInt8)
  | u16 (n : UInt16)
  | u32 (n : UInt32)
  | address (x : Address)
  /-- Zeros up to a multiple of four octets, counted from an offset. -/
  | padding (start : Nat)
  | names (v : Version) (names : List String)
  | header (h : Header)
  | snapshot (v : Version) (s : Snapshot)
  | record (v : Version) (r : Record)
  | message (m : Message)
  /-- Something that could not be made and so cannot be written. -/
  | failure (e : EncodeError)
  /-- Items with their length in front of them. -/
  | lengthPrefixed (items : List Layout.Item)

/-- Things to be written one after the other. -/
abbrev Layout := List Layout.Item

namespace Layout

mutual

/-- Writes an item. -/
def Item.write : Layout.Item → Writer Unit
  | .octets bs => Writer.append bs
  | .u8 n => Writer.append [n]
  | .u16 n => Writer.append (Octets.ofUInt16 n)
  | .u32 n => Writer.append (Octets.ofUInt32 n)
  | .address x => Writer.append x.octets
  | .padding start => Writer.padToWord start
  | .names v names => NameList.write v names
  | .header h => h.write
  | .snapshot v s => s.write v
  | .record v r => r.write v
  | .message m => m.write
  | .failure e => throw e
  | .lengthPrefixed items => Writer.lengthPrefixed (writeAll items)

/-- Writes items up to the first that fails. -/
def writeAll : List Layout.Item → Writer Unit
  | [] => pure ()
  | item :: rest => do
    Item.write item
    writeAll rest

end

end Layout

end FlowTelemetry

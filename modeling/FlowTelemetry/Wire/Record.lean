import FlowTelemetry.Network.Address
import FlowTelemetry.Wire.Header
import FlowTelemetry.Wire.NameList

/-!
# Records

A record says that a client asked for a name and what the answer was: the
names that were followed from the one asked for, and the addresses at the
end of them.

On the wire a record is the client's address, the number of names, the
number of addresses, the length of the names, the names and the addresses.
The length of the names is there for readers that do not care about them. It
also covers the zero octets that a writer adds to bring the addresses to a
multiple of four octets.

A failure inside the names is not the same as names that are not all there.
In the first case the whole stretch of names is present, so the reader can
say which name it was, but it has not taken the stretch: it stands where the
names begin.
-/

namespace FlowTelemetry

/-- What a client asked for, and what it got. -/
structure Record where
  /-- The client that asked. -/
  client : Address
  /-- The name asked for, and then the names it is an alias of. -/
  names : List String
  /-- The addresses in the answer. -/
  addresses : List Address
  deriving DecidableEq, Repr

namespace Record

/-- The number of octets before the names. -/
def fixedLength : Nat := 8

/-- The greatest number of names. -/
def maxNames : Nat := 255

/-- The greatest number of addresses. -/
def maxAddresses : Nat := 255

/-- Reads one field of the record with the given index. -/
def readField {α : Type} (index : Nat) (part : RecordField)
    (read : Cursor → Option (α × Cursor)) : Reader DecodeError α :=
  Reader.field read (.truncatedRecord index · part)

/-- Reads the names of the record with the given index. -/
def readNames (v : Version) (index count length : Nat) : Reader DecodeError (List String) :=
  fun c => match c.take? length with
    | none => .error (.truncatedRecord index c.position .names) c
    | some (stretch, after) =>
      match NameList.decode v count stretch with
      | .ok names => .ok names after
      | .error e => .error (.truncatedName index e.name (c.position + e.offset)) c

/-- Reads a record in the given version. The index is for errors only. -/
def read (v : Version) (index : Nat) : Reader DecodeError Record := do
  let client ← readField index .client Cursor.address?
  let nameCount ← readField index .nameCount Cursor.u8?
  let addressCount ← readField index .addressCount Cursor.u8?
  let length ← readField index .namesLength Cursor.u16?
  let names ← readNames v index nameCount.toNat length.toNat
  let addresses ← Reader.times addressCount.toNat (readField index .addresses Cursor.address?)
  return { client, names, addresses }

/-- Writes names and the padding after them. -/
def writeNames (v : Version) (names : List String) : Writer Unit := do
  let start ← Writer.position
  NameList.write v names
  Writer.padToWord start

/-- Writes an address. -/
def writeAddress (x : Address) : Writer Unit := Writer.append x.octets

/-- Writes a record in the given version. -/
def write (r : Record) (v : Version) : Writer Unit := do
  if r.names.length > maxNames || r.addresses.length > maxAddresses then throw .longData
  writeAddress r.client
  Writer.append [UInt8.ofNat r.names.length]
  Writer.append [UInt8.ofNat r.addresses.length]
  Writer.lengthPrefixed (writeNames v r.names)
  r.addresses.forM writeAddress

/-- The characters of several texts with commas between them. -/
def joined (texts : List (List Char)) : List Char := List.intercalate [','] texts

/-- The characters of the text of a record. -/
def chars (r : Record) : List Char :=
  let asked := r.client.chars ++ ' ' :: joined (r.names.map String.toList)
  match r.addresses with
  | [] => asked
  | addresses => asked ++ ' ' :: joined (addresses.map Address.chars)

/-- The client, the names and, if there are any, the addresses. -/
def text (r : Record) : String := String.ofList r.chars

end Record

end FlowTelemetry

import FlowTelemetry.Wire.Record
import FlowTelemetry.Wire.Snapshot

/-!
# Messages

A message is a header and a body, and the body is either a snapshot or a
list of records. It fills one datagram, and whatever follows it in the
datagram is ignored.

Which of the two bodies a message has is said by its flags. The number of
records is said by its header. A reader that only wants to know how a sender
is doing has no need of the records, and `Detail.headerOnly` leaves them
where they are: such a message has the empty list as its body, while its
header still says how many there were. Snapshots are read in any case.

Messages are made by `ofSnapshot` and `ofRecords`, which set up a header that
fits the body. A message read from octets keeps its header as it was.
-/

namespace FlowTelemetry

/-- What a message carries. -/
inductive Body where
  | stats (snapshot : Snapshot)
  | records (records : List Record)
  deriving DecidableEq, Repr

namespace Body

/-- The records, of which there are none beside a snapshot. -/
def recordList : Body → List Record
  | stats _ => []
  | records rs => rs

/-- The snapshot, if there is one. -/
def snapshot? : Body → Option Snapshot
  | stats s => some s
  | records _ => none

end Body

/-- A message of a sender. -/
structure Message where
  header : Header
  body : Body
  deriving DecidableEq, Repr

/-- How much of a message is read. -/
inductive Detail where
  /-- The header and the body. -/
  | full
  /-- The header, and the body if it is a snapshot. -/
  | headerOnly
  deriving DecidableEq, Repr

namespace Message

/-- The greatest number of records. -/
def maxRecords : Nat := 255

/-- The number of octets that senders try not to exceed. -/
def targetLength : Nat := 1200

/-- A message with a snapshot. It counts as one set. -/
def ofSnapshot (version : Version) (sequence : UInt32) (snapshot : Snapshot) : Message :=
  { header := { version, setCount := 1, flags := .stats, sequence }
    body := .stats snapshot }

/-- A message with records, of which there have to be 1 to 255. -/
def ofRecords (version : Version) (sequence : UInt32) (records : List Record) :
    Except EncodeError Message :=
  if records.isEmpty || records.length > maxRecords then .error .longData
  else .ok {
    header := { version, setCount := UInt8.ofNat records.length, flags := .none, sequence }
    body := .records records }

/-- Reads records, `index` being the number of records before them. -/
def readRecords (v : Version) (index : Nat) : Nat → Reader DecodeError (List Record)
  | 0 => pure []
  | count + 1 => do
    let record ← Record.read v index
    let more ← readRecords v (index + 1) count
    return record :: more

/-- Reads the body that a header announces. -/
def readBody (detail : Detail) (h : Header) : Reader DecodeError Body :=
  if h.isStats then Body.stats <$> Snapshot.read h.version
  else match detail with
    | .headerOnly => pure (.records [])
    | .full => Body.records <$> readRecords h.version 0 h.setCount.toNat

/-- Reads a message. -/
def read (detail : Detail) : Reader DecodeError Message := do
  let header ← Header.read
  let body ← readBody detail header
  return { header, body }

/-- The message at the front of the octets of a datagram. -/
def decode (detail : Detail) (bs : Octets) : Except DecodeError Message :=
  (read detail).run bs

/-- Writes a body in the given version. -/
def writeBody (v : Version) : Body → Writer Unit
  | .stats s => s.write v
  | .records rs => rs.forM (·.write v)

/-- Writes a message. The header is written as it is. -/
def write (m : Message) : Writer Unit := do
  m.header.write
  writeBody m.header.version m.body

/-- The octets of a message. -/
def encode (m : Message) : Except EncodeError Octets :=
  Writer.toOctets m.write

end Message

end FlowTelemetry

/-!
# What can go wrong on the wire

A message that cannot be read and a message that cannot be written fail for
reasons of their own, and each reason is a constructor here. The wording is
kept apart from the reason, in one `message` function per type.

A reading failure is *located*: it holds the offset, counted from the first
octet of the message, of the field that could not be read. Only the header
needs none, being always in front. Which field it was is an enumeration
rather than a text, so that "every field that can be missing has a label" is
seen from the definition.
-/

namespace FlowTelemetry

/-- The counters of a snapshot, in wire order. -/
inductive SnapshotField where
  | captured
  | received
  | dropped
  | interfaceDropped
  | sampleRate
  deriving DecidableEq, Repr

/-- The label of a counter in diagnostics. -/
def SnapshotField.label : SnapshotField → String
  | captured => "pkts_captured"
  | received => "pkts_received"
  | dropped => "pkts_dropped"
  | interfaceDropped => "pkts_ifdropped"
  | sampleRate => "sample_rate"

/-- The fields of a record, in wire order. -/
inductive RecordField where
  | client
  | nameCount
  | addressCount
  | namesLength
  | names
  | addresses
  deriving DecidableEq, Repr

/-- The label of a record's field in diagnostics. -/
def RecordField.label : RecordField → String
  | client => "client_ip"
  | nameCount => "names_count"
  | addressCount => "ips_count"
  | namesLength => "names_len"
  | names => "names"
  | addresses => "ips"

/-- Why a message could not be read. -/
inductive DecodeError where
  /-- Fewer octets than a header has. -/
  | truncatedHeader (available : Nat)
  /-- A header of unknown version, or one that announces no records. -/
  | invalidHeader (version setCount : UInt8)
  /-- A snapshot ends before one of its counters. -/
  | truncatedSnapshot (offset : Nat) (counter : SnapshotField)
  /-- A record ends before one of its fields. -/
  | truncatedRecord (record offset : Nat) (part : RecordField)
  /-- The names of a record are all there, but end within a name. -/
  | truncatedName (record name offset : Nat)
  deriving DecidableEq, Repr

namespace DecodeError

/-- The offset at which reading failed. -/
def offset : DecodeError → Nat
  | truncatedHeader _ => 0
  | invalidHeader _ _ => 0
  | truncatedSnapshot offset _ => offset
  | truncatedRecord _ offset _ => offset
  | truncatedName _ _ offset => offset

/-- The label of the field that could not be read. -/
def fieldLabel : DecodeError → String
  | truncatedHeader _ => "header"
  | invalidHeader _ _ => "header"
  | truncatedSnapshot _ counter => counter.label
  | truncatedRecord _ _ part => part.label
  | truncatedName _ _ _ => RecordField.names.label

/-- The error as a text. -/
def message : DecodeError → String
  | truncatedHeader available => s!"short header: {available} octets"
  | invalidHeader version setCount =>
    s!"bad header: version {version.toNat}, sets count {setCount.toNat}"
  | truncatedSnapshot offset counter => s!"short stats at offset {offset}: {counter.label}"
  | truncatedRecord record offset part =>
    s!"short record {record} at offset {offset}: {part.label}"
  | truncatedName record name offset =>
    s!"short name {name} in record {record} at offset {offset}"

end DecodeError

/-- Why a message could not be written. -/
inductive EncodeError where
  /-- A length or a count does not fit into its field. -/
  | longData
  /-- The buffer may not grow as far as it would have to. -/
  | shortBuffer
  /-- A name has no form in the encoding it is to be written in. -/
  | invalidName
  deriving DecidableEq, Repr

/-- The error as a text. -/
def EncodeError.message : EncodeError → String
  | longData => "long data"
  | shortBuffer => "short buffer"
  | invalidName => "invalid name"

end FlowTelemetry

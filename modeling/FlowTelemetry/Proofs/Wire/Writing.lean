import FlowTelemetry.Proofs.Wire.Effect
import FlowTelemetry.Wire.Message

/-!
# The effects of writing messages

The writer of every part of a message has an effect, given here as a function
of the part alone, and realises it. Together they make up `Message.effect`,
and encoding a message succeeds exactly if that effect does not fail, with
the octets that it adds (`Message.encode_eq_ok_iff`).

The effects say in the order of the fields what is added, and at which point
a part that cannot be written fails: a record with too many names or
addresses before anything else, a name that has no form in the version where
it stands, and names that are too long in all when their length would have to
be written.
-/

namespace FlowTelemetry

open Writer

/-! ## Names -/

namespace Name

/-- A name and the NUL after it, unless there is a NUL in the name. -/
def terminatedEffect (name : String) : Effect :=
  if name.toList.contains (Char.ofNat 0) then .fail .invalidName
  else .add (Utf8.octets name ++ [0])

/-- A label and the length before it, if it may be written. -/
def labelEffect (label : List Char) : Effect :=
  if (Utf8.encode label).isEmpty || (Utf8.encode label).length > maxLabelLength then
    .fail .invalidName
  else .add (UInt8.ofNat (Utf8.encode label).length :: Utf8.encode label)

/-- The labels of a name and the length zero. -/
def labelledEffect (name : String) : Effect :=
  (Effect.all ((labels name).map labelEffect)).seq (.add [0])

/-- A name in the form of a version. -/
def effect (v : Version) (name : String) : Effect :=
  if v.hasLabels then labelledEffect name else terminatedEffect name

theorem realises_writeTerminated (name : String) :
    (writeTerminated name).Realises (terminatedEffect name) := by
  unfold writeTerminated terminatedEffect
  split
  · exact realises_throw _
  · exact realises_seq (realises_append _) (realises_append _)

theorem realises_writeLabel (label : List Char) :
    (writeLabel label).Realises (labelEffect label) := by
  unfold writeLabel labelEffect
  dsimp only
  split
  · exact realises_throw _
  · exact realises_seq (realises_append _) (realises_append _)

theorem realises_writeLabelled (name : String) :
    (writeLabelled name).Realises (labelledEffect name) :=
  realises_seq (realises_forM realises_writeLabel (labels name)) (realises_append [0])

theorem realises_write (v : Version) (name : String) : (write v name).Realises (effect v name) := by
  unfold write effect
  split
  · exact realises_writeLabelled name
  · exact realises_writeTerminated name

end Name

namespace NameList

/-- Names one after the other. -/
def effect (v : Version) (names : List String) : Effect :=
  Effect.all (names.map (Name.effect v))

theorem realises_write (v : Version) (names : List String) :
    (write v names).Realises (effect v names) :=
  realises_forM (Name.realises_write v) names

end NameList

/-! ## Records -/

namespace Record

/-- What lies before the length of the names: the client and the two counts. -/
def front (r : Record) : Octets :=
  r.client.octets ++ [UInt8.ofNat r.names.length, UInt8.ofNat r.addresses.length]

/-- A record in the form of a version. -/
def effect (v : Version) (r : Record) : Effect :=
  if r.names.length > maxNames || r.addresses.length > maxAddresses then .fail .longData
  else (Effect.add r.front).seq
    ((NameList.effect v r.names).padded.lengthPrefixed.seq
      (.add (r.addresses.flatMap Address.octets)))

theorem realises_writeNames (v : Version) (names : List String) :
    (writeNames v names).Realises (NameList.effect v names).padded :=
  realises_padded (NameList.realises_write v names)

theorem realises_writeAddresses (addresses : List Address) :
    Realises (addresses.forM writeAddress) (.add (addresses.flatMap Address.octets)) := by
  rw [← Effect.all_map_add]
  exact realises_forM (fun x => realises_append x.octets) addresses

theorem realises_write (v : Version) (r : Record) : (r.write v).Realises (effect v r) := by
  unfold write effect
  split
  · exact realises_throw_seq _ _
  · unfold front
    rw [show [UInt8.ofNat r.names.length, UInt8.ofNat r.addresses.length] =
        [UInt8.ofNat r.names.length] ++ [UInt8.ofNat r.addresses.length] from rfl,
      ← Effect.add_seq_add_seq, ← Effect.add_seq_add_seq]
    exact realises_seq (realises_append _) (realises_seq (realises_append _)
      (realises_seq (realises_append _) (realises_seq
        (realises_lengthPrefixed (realises_writeNames v r.names))
        (realises_writeAddresses r.addresses))))

end Record

/-! ## Headers, counters and messages -/

namespace Header

/-- The octets of a header. -/
def octets (h : Header) : Octets :=
  [h.version.number, h.setCount] ++ Octets.ofUInt16 h.flags.bits ++ Octets.ofUInt32 h.sequence

theorem realises_write (h : Header) : h.write.Realises (.add h.octets) :=
  realises_seq (realises_append _) (realises_seq (realises_append _)
    (realises_seq (realises_append _) (realises_append _)))

end Header

namespace Snapshot

/-- The octets of a snapshot in the form of a version. -/
def octets (v : Version) (s : Snapshot) : Octets :=
  Octets.ofUInt32 s.captured ++ Octets.ofUInt32 s.received ++ Octets.ofUInt32 s.dropped ++
    Octets.ofUInt32 s.interfaceDropped ++
    if v.hasSampleRate then Octets.ofUInt32 (s.sampleRate.getD 0) else []

theorem realises_write (v : Version) (s : Snapshot) :
    (s.write v).Realises (.add (s.octets v)) := by
  unfold write octets
  split
  · exact realises_seq (realises_append _) (realises_seq (realises_append _)
      (realises_seq (realises_append _) (realises_seq (realises_append _) (realises_append _))))
  · exact realises_seq (realises_append _) (realises_seq (realises_append _)
      (realises_seq (realises_append _) (realises_seq (realises_append _) realises_pure)))

end Snapshot

namespace Message

/-- A body in the form of a version. -/
def bodyEffect (v : Version) : Body → Effect
  | .stats s => .add (s.octets v)
  | .records rs => Effect.all (rs.map (Record.effect v))

/-- A message: its header and its body. -/
def effect (m : Message) : Effect :=
  (Effect.add m.header.octets).seq (bodyEffect m.header.version m.body)

theorem realises_writeBody (v : Version) (body : Body) :
    (writeBody v body).Realises (bodyEffect v body) := by
  cases body with
  | stats s => exact Snapshot.realises_write v s
  | records rs => exact realises_forM (Record.realises_write v) rs

theorem realises_write (m : Message) : m.write.Realises m.effect :=
  realises_seq (Header.realises_write m.header) (realises_writeBody m.header.version m.body)

/-- **A message is encoded as the octets of its effect**, if that does not
fail. -/
theorem encode_eq_ok_iff {m : Message} {bs : Octets} :
    m.encode = .ok bs ↔ m.effect = .add bs :=
  toOctets_eq_ok_iff (realises_write m).performs

end Message

end FlowTelemetry

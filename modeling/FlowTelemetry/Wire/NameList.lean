import FlowTelemetry.Text.Utf8
import FlowTelemetry.Wire.Buffer
import FlowTelemetry.Wire.Version

/-!
# Lists of names

The names of a record are written one after the other into a stretch of
octets whose length is known. How many names there are is known too, so the
stretch may be longer than the names, which leaves room for padding.

There are two forms. *Terminated* names each end with a NUL octet. The
stretch is cut at every NUL and the first pieces are the names; whether the
last piece was ended or simply ran out makes no difference. *Labelled* names
are runs of labels, each with its length in an octet before it, ended by the
length zero; the text of such a name has a dot between its labels.

Reading is more liberal than writing. A label may be read with any length up
to 255, may hold dots, and may be something other than UTF-8. Written labels
have 1 to 63 octets. A name may be written with one dot at its end, which is
where the empty root label would be, and the dot is not kept.
-/

namespace FlowTelemetry

/-- The octets with a list of names ended within a name. -/
structure NameListError where
  /-- The index of the name that was not complete. -/
  name : Nat
  /-- The offset within the octets at which more octets were needed. -/
  offset : Nat
  deriving DecidableEq, Repr

/-- The error as a text. -/
def NameListError.message (e : NameListError) : String :=
  s!"names buffer ends in name {e.name} at offset {e.offset}"

namespace Name

/-- The greatest number of octets of a label that is written. -/
def maxLabelLength : Nat := 63

/-- The labels of the name at the front, and the octets after the name. If a
length or a label is missing, the number of octets that are left there. -/
def takeLabels : Octets → Except Nat (List Octets × Octets)
  | [] => .error 0
  | n :: rest =>
    if n = 0 then .ok ([], rest)
    else match h : Octets.split? n.toNat rest with
      | none => .error rest.length
      | some (label, after) =>
        have := Octets.length_of_split? h
        match takeLabels after with
        | .ok (labels, beyond) => .ok (label :: labels, beyond)
        | .error left => .error left
termination_by bs => bs.length

/-- The text of a name with the given labels. -/
def ofLabels (labels : List Octets) : String :=
  String.ofList (List.intercalate ['.'] (labels.map Utf8.decode))

/-- A text without the dot at its end, if it has one. -/
def withoutFinalDot (cs : List Char) : List Char :=
  if cs.getLast? = some '.' then cs.dropLast else cs

/-- The labels that a name is written with. The root name has none. -/
def labels (name : String) : List (List Char) :=
  match withoutFinalDot name.toList with
  | [] => []
  | cs => pieces '.' cs

/-- Writes a name and the NUL that ends it. -/
def writeTerminated (name : String) : Writer Unit :=
  if name.toList.contains (Char.ofNat 0) then throw .invalidName
  else do
    Writer.append (Utf8.octets name)
    Writer.append [0]

/-- Writes a label and its length. -/
def writeLabel (label : List Char) : Writer Unit :=
  let bs := Utf8.encode label
  if bs.isEmpty || bs.length > maxLabelLength then throw .invalidName
  else do
    Writer.append [UInt8.ofNat bs.length]
    Writer.append bs

/-- Writes the labels of a name and the length zero that ends them. -/
def writeLabelled (name : String) : Writer Unit := do
  (labels name).forM writeLabel
  Writer.append [0]

/-- Writes a name in the form of the given version. -/
def write (v : Version) (name : String) : Writer Unit :=
  if v.hasLabels then writeLabelled name else writeTerminated name

end Name

namespace NameList

/-- The first `count` terminated names. -/
def decodeTerminated (count : Nat) (bs : Octets) : Except NameListError (List String) :=
  let taken := (pieces 0 bs).take count
  let names := taken.map Utf8.text
  -- A NUL is counted after the last piece as well, so the octets may be over by then.
  let offset := taken.foldl (fun offset piece => offset + (piece.length + 1)) 0
  if names.length < count then .error ⟨names.length, min bs.length offset⟩
  else .ok names

/-- The next `count` labelled names of a list that has `size` octets, when
`index` names have been taken from it. -/
def takeLabelled (size index : Nat) : Nat → Octets → Except NameListError (List String)
  | 0, _ => .ok []
  | count + 1, bs =>
    match Name.takeLabels bs with
    | .error left => .error ⟨index, size - left⟩
    | .ok (labels, after) => do
      let more ← takeLabelled size (index + 1) count after
      return Name.ofLabels labels :: more

/-- The first `count` names in the form of the given version. -/
def decode (v : Version) (count : Nat) (bs : Octets) : Except NameListError (List String) :=
  if v.hasLabels then takeLabelled bs.length 0 count bs else decodeTerminated count bs

/-- Writes the names one after the other. -/
def write (v : Version) (names : List String) : Writer Unit :=
  names.forM (Name.write v)

end NameList

end FlowTelemetry

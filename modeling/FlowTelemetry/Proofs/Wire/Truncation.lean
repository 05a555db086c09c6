import FlowTelemetry.Proofs.Wire.Fields
import FlowTelemetry.Proofs.Wire.Reading

/-!
# Messages that are cut off

A message of which only the first octets are there is not read, and the error
says which field is not complete and where it begins. That this field is the
one the cut lies in is what *locating* a cut means (`Reader.Locates`). It is
said of a reader together with the octets that it would have read and with the
fields these have, neither of which depends on where the cut is.

Locating cuts is compositional, as acceptance is. If a cut lies behind the
first part, the first reader does not notice it, because it accepts the form
of that part whatever follows it; and if the cut lies in the first part, the
second reader is never run. So the fields of the parts only have to be put one
after the other (`locates_bind`), and the offsets add up by themselves.

Nothing that can be wrong with complete octets is ever reported of a cut. In
particular the names of a record are not looked at before their whole stretch
is there (`locates_readNames`).
-/

namespace FlowTelemetry

open WireForm

variable {α β : Type}

namespace Reader

/-- A reader made of two fails if the first does, or the second where the
first ended. -/
theorem bind_eq_error_iff {ε : Type} {read : Reader ε α} {next : α → Reader ε β}
    {c after : Cursor} {e : ε} :
    (read >>= next) c = .error e after ↔
      read c = .error e after ∨ ∃ a mid, read c = .ok a mid ∧ next a mid = .error e after := by
  show EStateM.bind read next c = .error e after ↔ _
  unfold EStateM.bind
  cases hread : read c with
  | ok a mid =>
    constructor
    · exact fun h => Or.inr ⟨a, mid, rfl, h⟩
    · rintro (h | ⟨_, _, h, hnext⟩)
      · exact nomatch h
      · cases h
        exact hnext
  | error e' mid =>
    constructor
    · intro h
      cases h
      exact Or.inl rfl
    · rintro (h | ⟨_, _, h, -⟩)
      · cases h
        rfl
      · exact nomatch h

/-- **A reader locates cuts**: of octets that it reads as these fields, cut
off before their end, it says that the field is missing which the cut lies
in. -/
def Locates (read : Reader DecodeError α) (bs : Octets) (fs : List Field) : Prop :=
  Field.total fs = bs.length ∧ ∀ position cut, cut < bs.length →
    ∃ offset f after, Field.Covers fs offset f cut ∧
      read ⟨position, bs.take cut⟩ = .error (f.error (position + offset) (cut - offset)) after

/-- **One part and then another.** -/
theorem locates_bind {read : Reader DecodeError α} {next : α → Reader DecodeError β}
    {F : WireForm α} {a : α} {first second : Octets} {fs gs : List Field}
    (haccepts : read.Accepts F) (hF : F a first) (hread : read.Locates first fs)
    (hnext : (next a).Locates second gs) :
    Locates (read >>= next) (first ++ second) (fs ++ gs) := by
  refine ⟨by rw [Field.total_append, hread.1, hnext.1, List.length_append], ?_⟩
  intro position cut hcut
  by_cases h : cut < first.length
  · obtain ⟨offset, f, after, hcovers, herror⟩ := hread.2 position cut h
    refine ⟨offset, f, after, hcovers.append_right gs, bind_eq_error_iff.mpr (Or.inl ?_)⟩
    rw [List.take_append_of_le_length (Nat.le_of_lt h), herror]
  · obtain ⟨beyond, rfl⟩ := Nat.exists_eq_add_of_le (Nat.le_of_not_lt h)
    rw [List.length_append, Nat.add_lt_add_iff_left] at hcut
    obtain ⟨offset, f, after, hcovers, herror⟩ :=
      hnext.2 (position + first.length) beyond hcut
    refine ⟨_, f, after, hread.1 ▸ hcovers.append_left fs, bind_eq_error_iff.mpr (Or.inr ?_)⟩
    refine ⟨a, ⟨position + first.length, second.take beyond⟩, ?_, ?_⟩
    · exact (haccepts _ _ _).mpr ⟨first, hF, by rw [List.take_length_add_append], rfl⟩
    · rw [herror, Nat.add_assoc, Nat.add_sub_add_left]

theorem locates_pure (a : α) : Locates (pure a) [] [] :=
  ⟨rfl, fun _ _ h => absurd h (Nat.not_lt_zero _)⟩

/-- **One part, of which something is made.** -/
theorem Locates.bind_pure {read : Reader DecodeError α} {bs : Octets} {fs : List Field}
    (h : read.Locates bs fs) (g : α → β) : Locates (read >>= fun a => pure (g a)) bs fs := by
  refine ⟨h.1, fun position cut hcut => ?_⟩
  obtain ⟨offset, f, after, hcovers, herror⟩ := h.2 position cut hcut
  exact ⟨offset, f, after, hcovers, bind_eq_error_iff.mpr (Or.inl herror)⟩

theorem Locates.map {read : Reader DecodeError α} {bs : Octets} {fs : List Field}
    (h : read.Locates bs fs) (g : α → β) : Locates (g <$> read) bs fs := by
  rw [← bind_pure_comp]
  exact h.bind_pure g

/-- A single field is missing if its octets are not all there. -/
theorem locates_singleton {read : Reader DecodeError α} {bs : Octets} {f : Field}
    (hwidth : f.width = bs.length)
    (h : ∀ position cut, cut < bs.length →
      ∃ after, read ⟨position, bs.take cut⟩ = .error (f.error position cut) after) :
    Locates read bs [f] := by
  refine ⟨by rw [Field.total_cons, hwidth]; rfl, fun position cut hcut => ?_⟩
  obtain ⟨after, herror⟩ := h position cut hcut
  exact ⟨0, f, after, Field.covers_singleton (hwidth ▸ hcut), herror⟩

/-- A single field of a fixed width. -/
theorem locates_field {take : Cursor → Option (α × Cursor)} {written : α → Octets}
    {short : Nat → DecodeError} {f : Field} (htakes : Cursor.Takes take fun a bs => bs = written a)
    (hwidth : ∀ a, (written a).length = f.width)
    (hshort : ∀ position cut, short position = f.error position cut) (a : α) :
    Locates (field take short) (written a) [f] := by
  refine locates_singleton (hwidth a).symm fun position cut hcut => ?_
  refine ⟨⟨position, (written a).take cut⟩, ?_⟩
  unfold field
  cases htake : take ⟨position, (written a).take cut⟩ with
  | none => rw [hshort position cut]
  | some taken =>
    -- What was taken would be shorter than the field.
    obtain ⟨b, after⟩ := taken
    obtain ⟨_, rfl, hrest, -⟩ := (htakes _ _ _).mp htake
    have hlength := congrArg List.length hrest
    rw [List.length_take_of_le (Nat.le_of_lt hcut), List.length_append, hwidth b,
      ← hwidth a] at hlength
    exact absurd hcut (Nat.not_lt.mpr (hlength ▸ Nat.le_add_right _ _))

/-- A field and then another part. -/
theorem locates_field_bind {take : Cursor → Option (α × Cursor)} {written : α → Octets}
    {short : Nat → DecodeError} {f : Field} {next : α → Reader DecodeError β} {bs : Octets}
    {fs : List Field} (htakes : Cursor.Takes take fun a bs => bs = written a)
    (hwidth : ∀ a, (written a).length = f.width)
    (hshort : ∀ position cut, short position = f.error position cut) {a : α}
    (hnext : (next a).Locates bs fs) :
    Locates (field take short >>= next) (written a ++ bs) (f :: fs) :=
  locates_bind (accepts_field htakes short) rfl (locates_field htakes hwidth hshort a) hnext

/-- One turn of a loop. -/
theorem locates_cons {read : Reader DecodeError α} {more : Reader DecodeError (List α)}
    {F : WireForm α} {a : α} {first second : Octets} {fs gs : List Field}
    (haccepts : read.Accepts F) (hF : F a first) (hread : read.Locates first fs)
    (hmore : more.Locates second gs) :
    Locates (do
      let a ← read
      let as ← more
      return a :: as) (first ++ second) (fs ++ gs) :=
  locates_bind haccepts hF hread (hmore.bind_pure (a :: ·))

/-- A loop locates cuts if each of its turns does. -/
theorem locates_times {read : Reader DecodeError α} {written : α → Octets} {f : Field}
    (haccepts : read.Accepts fun a bs => bs = written a)
    (hread : ∀ a, read.Locates (written a) [f]) {as : List α} {n : Nat} (hn : as.length = n) :
    Locates (times n read) (as.flatMap written) (List.replicate n f) := by
  induction as generalizing n with
  | nil =>
    subst hn
    exact locates_pure []
  | cons a as ih =>
    subst hn
    exact locates_cons haccepts rfl (hread a) (ih rfl)

end Reader

/-! ## Records and counters -/

namespace Record

/-- A field of a record and then what follows it. -/
theorem locates_readField_bind {take : Cursor → Option (α × Cursor)} {written : α → Octets}
    (htakes : Cursor.Takes take fun a bs => bs = written a) {width : Nat}
    (hwidth : ∀ a, (written a).length = width) {index : Nat} (part : RecordField)
    {next : α → Reader DecodeError β} {a : α} {bs : Octets} {fs : List Field}
    (hnext : (next a).Locates bs fs) :
    Reader.Locates (readField index part take >>= next) (written a ++ bs)
      (⟨.part index part, width⟩ :: fs) :=
  Reader.locates_field_bind htakes hwidth (fun _ _ => rfl) hnext

/-- The names are missing unless the whole stretch of them is there. What is
in the stretch does not matter. -/
theorem locates_readNames (v : Version) (index count : Nat) {length : Nat} {stretch : Octets}
    (h : stretch.length = length) :
    (readNames v index count length).Locates stretch [⟨.part index .names, length⟩] := by
  refine Reader.locates_singleton h.symm fun position cut hcut => ?_
  refine ⟨⟨position, stretch.take cut⟩, ?_⟩
  have hshort : Octets.split? length (stretch.take cut) = none :=
    Octets.split?_eq_none_iff.mpr (by rwa [List.length_take_of_le (Nat.le_of_lt hcut), ← h])
  unfold readNames Cursor.take?
  rw [hshort]
  rfl

/-- The addresses of a record, each of which may be the one that is missing. -/
theorem locates_readAddresses (index : Nat) {addresses : List Address} {count : Nat}
    (h : addresses.length = count) :
    (Reader.times count (readField index .addresses Cursor.address?)).Locates
      (addresses.flatMap Address.octets) (List.replicate count ⟨.part index .addresses, 4⟩) :=
  Reader.locates_times (Reader.accepts_field Cursor.takes_address? _)
    (Reader.locates_field Cursor.takes_address? (fun _ => rfl) (fun _ _ => rfl)) h

/-- **A record that is cut off lacks the field that the cut lies in.** -/
theorem locates_read {v : Version} {r : Record} {bs : Octets} (h : Form v r bs) (index : Nat) :
    (read v index).Locates bs (fields index bs) := by
  obtain ⟨nameCount, addressCount, length, names, rfl, hcount, haddresses, hlength, hform⟩ := h
  have hfields : fields index (r.client.octets ++ [nameCount, addressCount] ++
      Octets.ofUInt16 length ++ names ++ r.addresses.flatMap Address.octets) =
      fieldsOf index length.toNat addressCount.toNat := by
    show fieldsOf index (Octets.uint16 _ _).toNat _ = _
    rw [Octets.uint16_ofUInt16]
  have hread : (read v index).Locates
      (r.client.octets ++ ([nameCount] ++ ([addressCount] ++ (Octets.ofUInt16 length ++
        (names ++ r.addresses.flatMap Address.octets)))))
      (⟨.part index .client, 4⟩ :: ⟨.part index .nameCount, 1⟩ :: ⟨.part index .addressCount, 1⟩ ::
        ⟨.part index .namesLength, 2⟩ :: ([⟨.part index .names, length.toNat⟩] ++
        List.replicate addressCount.toNat ⟨.part index .addresses, 4⟩)) := by
    refine locates_readField_bind Cursor.takes_address? (fun _ => rfl) .client ?_
    refine locates_readField_bind Cursor.takes_u8? (fun _ => rfl) .nameCount ?_
    refine locates_readField_bind Cursor.takes_u8? (fun _ => rfl) .addressCount ?_
    refine locates_readField_bind Cursor.takes_u16? (fun _ => rfl) .namesLength ?_
    refine Reader.locates_bind (accepts_readNames v index nameCount.toNat length.toNat)
      ⟨hlength.symm, hcount.symm, hform⟩ (locates_readNames v index _ hlength.symm) ?_
    exact (locates_readAddresses index haddresses.symm).bind_pure _
  rw [hfields]
  simp only [List.append_assoc]
  exact hread

end Record

namespace Snapshot

/-- A counter and then what follows it. -/
theorem locates_readCounter_bind (counter : SnapshotField) {next : UInt32 → Reader DecodeError β}
    {n : UInt32} {bs : Octets} {fs : List Field} (hnext : (next n).Locates bs fs) :
    Reader.Locates (readCounter counter >>= next) (Octets.ofUInt32 n ++ bs)
      (⟨.counter counter, 4⟩ :: fs) :=
  Reader.locates_field_bind Cursor.takes_u32? (fun _ => rfl) (fun _ _ => rfl) hnext

theorem locates_readRate {v : Version} {rate : Option UInt32} (h : rate.isSome ↔ v = .v2) :
    (readRate v).Locates ((rate.map Octets.ofUInt32).getD []) (rateFields v) := by
  cases v with
  | v2 =>
    obtain ⟨n, rfl⟩ := Option.isSome_iff_exists.mp (h.mpr rfl)
    exact (Reader.locates_field Cursor.takes_u32? (fun _ => rfl) (fun _ _ => rfl) n).map some
  | v0 | v1 =>
    have hnone : rate = none := by simpa using h
    subst hnone
    exact Reader.locates_pure none

/-- **Counters that are cut off lack the one that the cut lies in.** -/
theorem locates_read {v : Version} {s : Snapshot} {bs : Octets} (h : Form v s bs) :
    (read v).Locates bs (fields v) := by
  obtain ⟨rfl, hrate⟩ := h
  have hread : (read v).Locates (Octets.ofUInt32 s.captured ++ (Octets.ofUInt32 s.received ++
      (Octets.ofUInt32 s.dropped ++ (Octets.ofUInt32 s.interfaceDropped ++
        (s.sampleRate.map Octets.ofUInt32).getD []))))
      (⟨.counter .captured, 4⟩ :: ⟨.counter .received, 4⟩ :: ⟨.counter .dropped, 4⟩ ::
        ⟨.counter .interfaceDropped, 4⟩ :: rateFields v) := by
    rw [read_eq]
    refine locates_readCounter_bind .captured ?_
    refine locates_readCounter_bind .received ?_
    refine locates_readCounter_bind .dropped ?_
    refine locates_readCounter_bind .interfaceDropped ?_
    exact (locates_readRate hrate).bind_pure _
  simp only [List.append_assoc]
  exact hread

end Snapshot

/-! ## Messages -/

namespace Message

/-- **Records that are cut off lack the field that the cut lies in**, however
many lie before them and whatever follows them. -/
theorem locates_readRecords {v : Version} {rs : List Record} {bs : Octets}
    (h : Sequence (Record.Form v) rs bs) (index : Nat) (rest : Octets) :
    (readRecords v index rs.length).Locates bs (recordFields index rs.length (bs ++ rest)) := by
  induction h generalizing index with
  | nil => exact Reader.locates_pure []
  | @cons r rs first more hr _ ih =>
    have hfirst := Record.locates_read hr index
    have hfields : recordFields index (rs.length + 1) (first ++ more ++ rest) =
        Record.fields index first ++ recordFields (index + 1) rs.length (more ++ rest) := by
      show Record.fields index _ ++ recordFields _ _ (List.drop (Field.total _) _) = _
      rw [List.append_assoc, hr.fields_append, hfirst.1, List.drop_left]
    rw [List.length_cons, hfields]
    exact Reader.locates_cons (Record.accepts_read v index) hr hfirst (ih (index + 1))

/-- A body that is cut off lacks the field that the cut lies in. -/
theorem locates_readBody {h : Header} {body : Body} {bs : Octets} (hform : body.Form h bs)
    (rest : Octets) : (readBody .full h).Locates bs (body.fields h.version (bs ++ rest)) := by
  unfold readBody
  cases body with
  | stats s =>
    rw [if_pos (show h.isStats = true from (Flags.isStats_iff_lowBit _).mpr hform.1)]
    exact (Snapshot.locates_read hform.2).map Body.stats
  | records rs =>
    obtain ⟨hbit, hcount, hsequence⟩ := hform
    rw [if_neg (show ¬ h.isStats = true from fun hs => hbit ((Flags.isStats_iff_lowBit _).mp hs)),
      ← hcount]
    exact (locates_readRecords hsequence 0 rest).map Body.records

end Message

namespace Header

/-- A header of which not all octets are there is missing as a whole. -/
theorem read_of_length_lt {c : Cursor} (h : c.rest.length < length) :
    read c = .error (.truncatedHeader c.remaining) c := by
  unfold read
  split
  · next position v n f₁ f₀ s₃ s₂ s₁ s₀ rest =>
    exact absurd h (Nat.not_lt.mpr (Nat.le_add_left 8 rest.length))
  · rfl

theorem length_of_form {h : Header} {bs : Octets} (hform : h.Form bs) : bs.length = length :=
  hform.1 ▸ rfl

theorem locates_read {bs : Octets} (hlength : bs.length = length) :
    read.Locates bs [⟨.header, length⟩] := by
  refine Reader.locates_singleton hlength.symm fun position cut hcut => ?_
  refine ⟨⟨position, bs.take cut⟩, ?_⟩
  have hcutLength := List.length_take_of_le (Nat.le_of_lt hcut)
  rw [read_of_length_lt (by rwa [hcutLength, ← hlength]), Cursor.remaining, hcutLength]
  rfl

end Header

namespace Message

/-- **A message that is cut off lacks the field that the cut lies in.** -/
theorem locates_read {m : Message} {bs : Octets} (hform : m.Form bs) (rest : Octets) :
    (read .full).Locates bs (m.fields (bs ++ rest)) := by
  obtain ⟨header, body, rfl, hheader, hbody⟩ := hform
  have hlength := Header.length_of_form hheader
  have hfields : m.fields (header ++ body ++ rest) =
      [⟨.header, Header.length⟩] ++ m.body.fields m.header.version (body ++ rest) := by
    unfold fields
    rw [List.append_assoc, ← hlength, List.drop_left]
    rfl
  rw [hfields]
  exact Reader.locates_bind Header.accepts_read hheader (Header.locates_read hlength)
    ((locates_readBody hbody rest).bind_pure _)

/-- Decoding fails if reading does, wherever it stops. -/
theorem decode_eq_error_iff_read {detail : Detail} {p : Octets} {e : DecodeError} :
    decode detail p = .error e ↔ ∃ after, read detail (Cursor.start p) = .error e after := by
  unfold decode Reader.run EStateM.run
  cases read detail (Cursor.start p) with
  | ok m after => simp
  | error e' after => simp

/-- **All shorter prefixes of a message are refused** for the field that is cut
off. -/
theorem decode_take_eq_error {m : Message} {bs : Octets} (hform : m.Form bs) (rest : Octets)
    {cut : Nat} (hcut : cut < bs.length) :
    ∃ offset f, Field.Covers (m.fields (bs ++ rest)) offset f cut ∧
      decode .full ((bs ++ rest).take cut) = .error (f.error offset (cut - offset)) := by
  obtain ⟨offset, f, after, hcovers, herror⟩ := (locates_read hform rest).2 0 cut hcut
  refine ⟨offset, f, hcovers, decode_eq_error_iff_read.mpr ⟨after, ?_⟩⟩
  rw [List.take_append_of_le_length (Nat.le_of_lt hcut), Cursor.start, herror, Nat.zero_add]

end Message

end FlowTelemetry

import FlowTelemetry.Proofs.Wire.Grammar

/-!
# Where the fields of a message lie

The fields of a message follow each other without a gap, so a list of their
widths says where each of them begins. The widths of a record are given by
three of its own octets: the number of addresses and the length of the names.
They are read off here directly, by their place in the record and not by
running a reader, so that what a reader says about the place of a field can
be held against it.

A field that is cut off has one error only (`Field.error`). It names the
field and where the field begins; of a header, which always begins in front,
it says how many octets of it there are.
-/

namespace FlowTelemetry

open WireForm

/-! ## Fields -/

/-- Which field of a message. -/
inductive Field.Place where
  | header
  | counter (counter : SnapshotField)
  | part (record : Nat) (part : RecordField)
  deriving DecidableEq, Repr

/-- **A field** and how many octets it has. -/
structure Field where
  place : Field.Place
  width : Nat
  deriving DecidableEq, Repr

namespace Field

/-- The error of a field that begins at an offset and is cut off after the
octets that are available. -/
def error (f : Field) (offset available : Nat) : DecodeError :=
  match f.place with
  | .header => .truncatedHeader available
  | .counter counter => .truncatedSnapshot offset counter
  | .part record part => .truncatedRecord record offset part

/-- How many octets fields have together. -/
def total : List Field → Nat
  | [] => 0
  | f :: fs => f.width + total fs

@[simp] theorem total_nil : total [] = 0 := rfl

@[simp] theorem total_cons (f : Field) (fs : List Field) : total (f :: fs) = f.width + total fs :=
  rfl

@[simp] theorem total_append (fs gs : List Field) : total (fs ++ gs) = total fs + total gs := by
  induction fs with
  | nil => rw [List.nil_append, total_nil, Nat.zero_add]
  | cons f fs ih => rw [List.cons_append, total_cons, total_cons, ih, Nat.add_assoc]

theorem dvd_total {n : Nat} {fs : List Field} (h : ∀ f ∈ fs, n ∣ f.width) : n ∣ total fs := by
  induction fs with
  | nil => exact Nat.dvd_zero n
  | cons f fs ih =>
    exact Nat.dvd_add (h f List.mem_cons_self) (ih fun g hg => h g (List.mem_cons_of_mem f hg))

/-- **A field of a list begins at an offset**: this is how many octets the
fields before it have. -/
def At (fs : List Field) (offset : Nat) (f : Field) : Prop :=
  ∃ before later, fs = before ++ f :: later ∧ offset = total before

theorem At.mem {fs : List Field} {offset : Nat} {f : Field} (h : At fs offset f) : f ∈ fs := by
  obtain ⟨before, later, rfl, -⟩ := h
  exact List.mem_append_right _ List.mem_cons_self

/-- The field at an offset reaches over an octet. -/
def Covers (fs : List Field) (offset : Nat) (f : Field) (octet : Nat) : Prop :=
  At fs offset f ∧ offset ≤ octet ∧ octet < offset + f.width

theorem Covers.append_right {fs : List Field} {offset octet : Nat} {f : Field}
    (h : Covers fs offset f octet) (gs : List Field) : Covers (fs ++ gs) offset f octet := by
  obtain ⟨⟨before, later, rfl, rfl⟩, hreach⟩ := h
  exact ⟨⟨before, later ++ gs, by rw [List.append_assoc, List.cons_append], rfl⟩, hreach⟩

theorem Covers.append_left {gs : List Field} {offset octet : Nat} {f : Field}
    (h : Covers gs offset f octet) (fs : List Field) :
    Covers (fs ++ gs) (total fs + offset) f (total fs + octet) := by
  obtain ⟨⟨before, later, rfl, rfl⟩, hbegin, hend⟩ := h
  refine ⟨⟨fs ++ before, later, (List.append_assoc _ _ _).symm, (total_append _ _).symm⟩, ?_, ?_⟩
  · exact Nat.add_le_add_left hbegin _
  · rw [Nat.add_assoc]
    exact Nat.add_lt_add_left hend _

/-- An octet lies in the first field or behind it. -/
theorem Covers.first_or_later {f g : Field} {fs : List Field} {offset octet : Nat}
    (h : Covers (f :: fs) offset g octet) :
    octet < f.width ∧ offset = 0 ∧ g = f ∨ f.width ≤ octet ∧ g ∈ fs := by
  obtain ⟨⟨before, later, hfs, rfl⟩, hbegin, hend⟩ := h
  cases before with
  | nil =>
    obtain ⟨rfl, rfl⟩ := List.cons_eq_cons.mp hfs
    exact Or.inl ⟨by rwa [total_nil, Nat.zero_add] at hend, rfl, rfl⟩
  | cons f' before =>
    obtain ⟨rfl, rfl⟩ := List.cons_eq_cons.mp hfs
    rw [total_cons] at hbegin
    exact Or.inr ⟨Nat.le_trans (Nat.le_add_right _ _) hbegin,
      List.mem_append_right _ List.mem_cons_self⟩

theorem covers_singleton {f : Field} {octet : Nat} (h : octet < f.width) :
    Covers [f] 0 f octet :=
  ⟨⟨[], [], rfl, rfl⟩, Nat.zero_le _, by rwa [Nat.zero_add]⟩

end Field

/-! ## The fields of a message -/

namespace Snapshot

/-- The field of the sampling rate, if the version has one. -/
def rateFields (v : Version) : List Field :=
  if v.hasSampleRate then [⟨.counter .sampleRate, 4⟩] else []

/-- The fields of counters. -/
def fields (v : Version) : List Field :=
  [⟨.counter .captured, 4⟩, ⟨.counter .received, 4⟩, ⟨.counter .dropped, 4⟩,
    ⟨.counter .interfaceDropped, 4⟩] ++ rateFields v

/-- All of them are counters of four octets. -/
theorem exists_counter_of_mem {v : Version} {f : Field} (h : f ∈ fields v) :
    ∃ counter, f = ⟨.counter counter, 4⟩ := by
  have hrate : ∀ {f}, f ∈ rateFields v → f = ⟨.counter .sampleRate, 4⟩ := by
    cases v <;> simp [rateFields, Version.hasSampleRate]
  simp only [fields, List.mem_append, List.mem_cons, List.not_mem_nil, or_false] at h
  rcases h with (rfl | rfl | rfl | rfl) | h
  · exact ⟨_, rfl⟩
  · exact ⟨_, rfl⟩
  · exact ⟨_, rfl⟩
  · exact ⟨_, rfl⟩
  · exact ⟨_, hrate h⟩

end Snapshot

namespace Record

/-- The fields of a record whose names and addresses are of the given length
and number. -/
def fieldsOf (index namesLength addressCount : Nat) : List Field :=
  [⟨.part index .client, 4⟩, ⟨.part index .nameCount, 1⟩, ⟨.part index .addressCount, 1⟩,
    ⟨.part index .namesLength, 2⟩, ⟨.part index .names, namesLength⟩] ++
  List.replicate addressCount ⟨.part index .addresses, 4⟩

/-- The fields of the record in front. The sixth octet says how many addresses
there are, and the two after it how long the names are. -/
def fields (index : Nat) : Octets → List Field
  | _ :: _ :: _ :: _ :: _ :: addressCount :: l₁ :: l₀ :: _ =>
    fieldsOf index (Octets.uint16 l₁ l₀).toNat addressCount.toNat
  | _ => []

theorem exists_part_of_mem_fieldsOf {index namesLength addressCount : Nat} {f : Field}
    (h : f ∈ fieldsOf index namesLength addressCount) : ∃ part, f.place = .part index part := by
  simp only [fieldsOf, List.mem_append, List.mem_cons, List.not_mem_nil, or_false,
    List.mem_replicate] at h
  rcases h with (rfl | rfl | rfl | rfl | rfl) | ⟨-, rfl⟩ <;> exact ⟨_, rfl⟩

/-- All fields are parts of the record. -/
theorem exists_part_of_mem {index : Nat} {bs : Octets} {f : Field} (h : f ∈ fields index bs) :
    ∃ part, f.place = .part index part := by
  unfold fields at h
  split at h
  · exact exists_part_of_mem_fieldsOf h
  · exact absurd h List.not_mem_nil

end Record

namespace Message

/-- The fields of a number of records, each record beginning where the fields
of the one before it end. -/
def recordFields (index : Nat) : Nat → Octets → List Field
  | 0, _ => []
  | count + 1, bs =>
    let fs := Record.fields index bs
    fs ++ recordFields (index + 1) count (bs.drop (Field.total fs))

theorem exists_part_of_mem {index count : Nat} {bs : Octets} {f : Field}
    (h : f ∈ recordFields index count bs) : ∃ record part, f.place = .part record part := by
  induction count generalizing index bs with
  | zero => exact absurd h List.not_mem_nil
  | succ count ih =>
    rcases List.mem_append.mp h with h | h
    · exact ⟨index, Record.exists_part_of_mem h⟩
    · exact ih h

end Message

/-- The fields of a body. -/
def Body.fields (v : Version) : Body → Octets → List Field
  | .stats _, _ => Snapshot.fields v
  | .records rs, bs => Message.recordFields 0 rs.length bs

/-- **The fields of a message** in the octets it lies in front of. -/
def Message.fields (m : Message) (p : Octets) : List Field :=
  ⟨.header, Header.length⟩ :: m.body.fields m.header.version (p.drop Header.length)

/-! ## Fields and forms -/

namespace Record

/-- **The form of a record has the fields of the record**, whatever follows
it. -/
theorem Form.fields_append {v : Version} {r : Record} {bs : Octets} (h : Form v r bs)
    (index : Nat) (rest : Octets) : fields index (bs ++ rest) = fields index bs := by
  obtain ⟨nameCount, addressCount, length, names, rfl, -⟩ := h
  rfl

end Record

end FlowTelemetry

import FlowTelemetry.Proofs.Wire.BrokenNames
import FlowTelemetry.Proofs.Wire.HeaderOnly

/-!
# Where reading stops

A reader that fails says where, and it also leaves its cursor somewhere. What
is said here is that the two agree, for every place a reader can be started
from and whatever the octets are. Cuts of messages that are otherwise in order
(`Reader.Locates`) are not enough for this, since the octets of a record may be
anything at all.

Almost all failures are for want of a field: the cursor stands where the field
begins, and the octets that are left are too few for it (`Cursor.Lacks`). The
fields are those that the octets themselves announce. A record says in three of
its first eight octets how long the rest of it is, and these are read off by
their place in it (`Record.layout`).

The one failure of another kind is that of names that end within a name. They
are read from a stretch that has been cut out but not yet gone past, so the
cursor stays at the start of the stretch, and the place that is reported is the
offset within the stretch added to the position of that start.
-/

namespace FlowTelemetry

open WireForm

variable {α β : Type}

/-! ## Places -/

namespace Cursor

/-- The place `n` octets further on. -/
def forward (c : Cursor) (n : Nat) : Cursor := ⟨c.position + n, c.rest.drop n⟩

/-- The position behind the last octet. -/
def finish (c : Cursor) : Nat := c.position + c.remaining

/-- **A field is lacking**: of the fields that begin here there is one for
which too few octets are left, and the reader stands where that field begins. -/
def Lacks (c : Cursor) (fs : List Field) (e : DecodeError) (after : Cursor) : Prop :=
  ∃ n f, Field.At fs n f ∧ n ≤ c.remaining ∧ after = c.forward n ∧ after.remaining < f.width ∧
    e = f.error after.position after.remaining

variable {c after : Cursor} {fs : List Field} {e : DecodeError}

/-- The first field may be lacking. -/
theorem lacks_first {f : Field} (h : c.remaining < f.width) (fs : List Field) :
    c.Lacks (f :: fs) (f.error c.position c.remaining) c :=
  ⟨0, f, ⟨[], fs, rfl, rfl⟩, Nat.zero_le _, rfl, h, rfl⟩

/-- Or one behind a field that is there. -/
theorem Lacks.cons {f : Field} {position : Nat} {bs more : Octets} (hwidth : bs.length = f.width)
    (h : Lacks ⟨position + f.width, more⟩ fs e after) :
    Lacks ⟨position, bs ++ more⟩ (f :: fs) e after := by
  obtain ⟨n, g, ⟨before, later, rfl, rfl⟩, hle, rfl, hlt, he⟩ := h
  refine ⟨f.width + Field.total before, g, ⟨f :: before, later, rfl, rfl⟩, ?_, ?_, hlt, he⟩
  · rw [← hwidth, remaining, List.length_append]
    exact Nat.add_le_add_left hle _
  · unfold forward
    rw [← hwidth, ← List.drop_drop, List.drop_left, Nat.add_assoc]

/-- A field that is lacking begins before the end. -/
theorem Lacks.offset_le (h : c.Lacks fs e after) : e.offset ≤ c.finish := by
  obtain ⟨n, f, -, hbegin, rfl, -, rfl⟩ := h
  have hle : (c.forward n).position ≤ c.finish := Nat.add_le_add_left hbegin _
  unfold Field.error
  cases f.place with
  | header => exact Nat.zero_le _
  | counter counter => exact hle
  | part record part => exact hle

end Cursor

/-! ## Readers of fields -/

/-- **An elementary read of a fixed width**: every so many octets are the form
of something, and of nothing are there more or fewer. -/
structure Cursor.Fixed (take : Cursor → Option (α × Cursor)) (written : α → Octets)
    (width : Nat) : Prop where
  takes : Takes take fun a bs => bs = written a
  length : ∀ a, (written a).length = width
  covers : ∀ bs : Octets, bs.length = width → ∃ a, bs = written a

namespace Cursor

theorem fixed_u8? : Fixed u8? (fun a => [a]) 1 where
  takes := takes_u8?
  length _ := rfl
  covers _ h := List.length_eq_one_iff.mp h

theorem fixed_u16? : Fixed u16? Octets.ofUInt16 2 where
  takes := takes_u16?
  length _ := rfl
  covers bs h := by
    match bs, h with
    | [a, b], _ => exact ⟨_, (Octets.ofUInt16_uint16 a b).symm⟩

theorem fixed_u32? : Fixed u32? Octets.ofUInt32 4 where
  takes := takes_u32?
  length _ := rfl
  covers bs h := by
    match bs, h with
    | [a, b, c, d], _ => exact ⟨_, (Octets.ofUInt32_uint32 a b c d).symm⟩

theorem fixed_address? : Fixed address? Address.octets 4 where
  takes := takes_address?
  length _ := rfl
  covers bs h := by
    match bs, h with
    | [a, b, c, d], _ => exact ⟨⟨a, b, c, d⟩, rfl⟩

variable {take : Cursor → Option (α × Cursor)} {written : α → Octets} {width : Nat}

/-- Nothing is taken only if too few octets are left. -/
theorem Fixed.remaining_lt (h : Fixed take written width) {c : Cursor} (hnone : take c = none) :
    c.remaining < width := by
  refine Nat.lt_of_not_le fun hle => ?_
  obtain ⟨a, ha⟩ := h.covers (c.rest.take width) (List.length_take_of_le hle)
  have hsome : take c = some (a, c.forward width) := by
    refine (h.takes _ _ _).mpr ⟨_, rfl, ?_, by rw [h.length a]; rfl⟩
    rw [← ha]
    exact (List.take_append_drop width c.rest).symm
  exact nomatch hnone.symm.trans hsome

end Cursor

namespace Reader

/-- What was read is behind the reader, and nothing else is. -/
theorem Accepts.eq_forward {ε : Type} {read : Reader ε α} {F : WireForm α} (h : read.Accepts F)
    {c after : Cursor} {a : α} (hread : read c = .ok a after) :
    ∃ bs, F a bs ∧ c.rest = bs ++ after.rest ∧ bs.length ≤ c.remaining ∧
      after = c.forward bs.length := by
  obtain ⟨bs, hF, hrest, hposition⟩ := (h c after a).mp hread
  refine ⟨bs, hF, hrest, ?_, ?_⟩
  · rw [Cursor.remaining, hrest]
    exact (List.prefix_append bs after.rest).length_le
  · rw [Cursor.forward, hrest, List.drop_left, ← hposition]

/-- Making something of what was read does not fail. -/
theorem bind_pure_eq_error_iff {ε : Type} {read : Reader ε α} {g : α → β} {c after : Cursor}
    {e : ε} : (read >>= fun a => pure (g a)) c = .error e after ↔ read c = .error e after := by
  rw [bind_eq_error_iff]
  constructor
  · rintro (h | ⟨_, _, -, h⟩)
    · exact h
    · exact nomatch h
  · exact Or.inl

theorem map_eq_error_iff {ε : Type} {read : Reader ε α} {g : α → β} {c after : Cursor} {e : ε} :
    (g <$> read) c = .error e after ↔ read c = .error e after := by
  rw [← bind_pure_comp, bind_pure_eq_error_iff]

/-- **All failures of a reader are for want of one of these fields.** -/
def Lacking (read : Reader DecodeError α) (fs : List Field) : Prop :=
  ∀ ⦃c after : Cursor⦄ ⦃e : DecodeError⦄, read c = .error e after → c.Lacks fs e after

variable {take : Cursor → Option (α × Cursor)} {written : α → Octets} {f : Field}
  {short : Nat → DecodeError} {next : α → Reader DecodeError β} {fs : List Field}

theorem lacking_pure (a : α) (fs : List Field) : Lacking (pure a) fs :=
  fun _ _ _ h => nomatch h

/-- Of the first field, whatever fields come after it. -/
theorem lacking_field (hfixed : Cursor.Fixed take written f.width)
    (hshort : ∀ position available, short position = f.error position available)
    (fs : List Field) : Lacking (field take short) (f :: fs) := by
  intro c after e h
  unfold field at h
  split at h
  · exact nomatch h
  · next hnone =>
    cases h
    rw [hshort c.position c.remaining]
    exact Cursor.lacks_first (hfixed.remaining_lt hnone) fs

/-- **A field and then another part**: the field is lacking, or it is there and
the failure is one of the other part, for want of a field or for another
reason. -/
theorem field_bind_error (hfixed : Cursor.Fixed take written f.width)
    (hshort : ∀ position available, short position = f.error position available)
    {position : Nat} {rest : Octets} {after : Cursor} {e : DecodeError} {other : Prop}
    (h : (field take short >>= next) ⟨position, rest⟩ = .error e after)
    (hnext : ∀ a more, rest = written a ++ more →
      next a ⟨position + f.width, more⟩ = .error e after →
      Cursor.Lacks ⟨position + f.width, more⟩ fs e after ∨ other) :
    Cursor.Lacks ⟨position, rest⟩ (f :: fs) e after ∨ other := by
  rcases bind_eq_error_iff.mp h with h | ⟨a, ⟨_, more⟩, hread, herror⟩
  · exact Or.inl (lacking_field hfixed hshort fs h)
  · obtain ⟨_, rfl, hrest, hposition⟩ := (accepts_field hfixed.takes short _ _ _).mp hread
    simp only at hrest hposition
    subst hrest hposition
    rw [hfixed.length a] at herror
    exact (hnext a more rfl herror).imp_left (Cursor.Lacks.cons (hfixed.length a))

theorem lacking_field_bind (hfixed : Cursor.Fixed take written f.width)
    (hshort : ∀ position available, short position = f.error position available)
    (hnext : ∀ a, (next a).Lacking fs) : Lacking (field take short >>= next) (f :: fs) := by
  rintro ⟨position, rest⟩ after e h
  have hlacks : Cursor.Lacks ⟨position, rest⟩ (f :: fs) e after ∨ False :=
    field_bind_error hfixed hshort h fun a _ _ herror => Or.inl (hnext a herror)
  exact hlacks.resolve_right id

/-- In a loop, one field for each turn. -/
theorem lacking_times (hfixed : Cursor.Fixed take written f.width)
    (hshort : ∀ position available, short position = f.error position available) (n : Nat) :
    Lacking (times n (field take short)) (List.replicate n f) := by
  induction n with
  | zero => exact lacking_pure [] _
  | succ n ih =>
    exact lacking_field_bind hfixed hshort fun a c after e h => ih (bind_pure_eq_error_iff.mp h)

end Reader

/-! ## Counters -/

namespace Snapshot

theorem lacking_readRate (v : Version) : (readRate v).Lacking (rateFields v) := by
  cases v with
  | v2 =>
    exact fun c after e h =>
      Reader.lacking_field Cursor.fixed_u32? (fun _ _ => rfl) [] (Reader.map_eq_error_iff.mp h)
  | v0 | v1 => exact Reader.lacking_pure none []

/-- **Counters fail for want of a counter only.** -/
theorem lacking_read (v : Version) : (read v).Lacking (fields v) := by
  rw [read_eq]
  refine Reader.lacking_field_bind Cursor.fixed_u32? (fun _ _ => rfl) fun captured => ?_
  refine Reader.lacking_field_bind Cursor.fixed_u32? (fun _ _ => rfl) fun received => ?_
  refine Reader.lacking_field_bind Cursor.fixed_u32? (fun _ _ => rfl) fun dropped => ?_
  refine Reader.lacking_field_bind Cursor.fixed_u32? (fun _ _ => rfl) fun interfaceDropped => ?_
  exact fun c after e h => lacking_readRate v (Reader.bind_pure_eq_error_iff.mp h)

/-- **Which counter is lacking and where.** All counters before it are there,
four octets each. -/
theorem read_error {v : Version} {c after : Cursor} {e : DecodeError}
    (h : read v c = .error e after) :
    ∃ counter n, e = .truncatedSnapshot after.position counter ∧ after = c.forward n ∧
      n ≤ c.remaining ∧ Field.At (fields v) n ⟨.counter counter, 4⟩ ∧ 4 ∣ n ∧
      after.remaining < 4 := by
  obtain ⟨n, f, hat, hle, hafter, hlt, rfl⟩ := lacking_read v h
  obtain ⟨counter, rfl⟩ := exists_counter_of_mem hat.mem
  refine ⟨counter, n, rfl, hafter, hle, hat, ?_, hlt⟩
  obtain ⟨before, later, hfields, rfl⟩ := hat
  refine Field.dvd_total fun f hf => ?_
  obtain ⟨_, rfl⟩ := exists_counter_of_mem (v := v) (hfields ▸ List.mem_append_left _ hf)
  exact Nat.dvd_refl 4

end Snapshot

/-! ## Records -/

namespace Record

/-- How many addresses a record has, by its sixth octet. -/
def addressCount (bs : Octets) : Nat := (bs.getD 5 0).toNat

/-- How many octets its names have, by the two octets after that. -/
def namesLength (bs : Octets) : Nat := (Octets.uint16 (bs.getD 6 0) (bs.getD 7 0)).toNat

/-- **The fields that the octets of a record announce.** Lengths that are not
there count as zero, which concerns no field in front of them. -/
def layout (index : Nat) (bs : Octets) : List Field :=
  fieldsOf index (namesLength bs) (addressCount bs)

/-- The number of octets that a record announces. -/
def extent (bs : Octets) : Nat := fixedLength + namesLength bs + 4 * addressCount bs

theorem total_fieldsOf (index namesLength addressCount : Nat) :
    Field.total (fieldsOf index namesLength addressCount) =
      fixedLength + namesLength + 4 * addressCount := by
  have hreplicate : ∀ (n : Nat) (f : Field), Field.total (List.replicate n f) = f.width * n := by
    intro n f
    induction n with
    | zero => rfl
    | succ n ih =>
      rw [List.replicate_succ, Field.total_cons, ih, Nat.mul_succ, Nat.add_comm]
  unfold fieldsOf
  rw [Field.total_append, hreplicate]
  simp only [Field.total_cons, Field.total_nil, fixedLength]
  omega

/-- **A record goes on as far as it announces.** -/
theorem Form.extent_append {v : Version} {r : Record} {bs : Octets} (h : Form v r bs)
    (rest : Octets) : extent (bs ++ rest) = bs.length := by
  have hlayout : fields 0 bs = layout 0 (bs ++ rest) := by
    obtain ⟨nameCount, addressCount, length, names, rfl, -⟩ := h
    rfl
  rw [← (locates_read h 0).1, hlayout]
  exact (total_fieldsOf 0 _ _).symm

/-- The announced length of the names is the number in front of them. -/
theorem namesLength_append (client : Address) (nameCount addressCount : UInt8)
    (length : UInt16) (rest : Octets) :
    namesLength (client.octets ++ ([nameCount] ++ ([addressCount] ++
      (Octets.ofUInt16 length ++ rest)))) = length.toNat := by
  show (Octets.uint16 (UInt8.ofNat (length.toNat / 256)) (UInt8.ofNat length.toNat)).toNat = _
  rw [Octets.uint16_ofUInt16]

/-- **A part of a record is lacking.** The cursor stands where it begins. -/
def LacksPart (index : Nat) (c : Cursor) (e : DecodeError) (after : Cursor) : Prop :=
  ∃ part n width, e = .truncatedRecord index after.position part ∧ after = c.forward n ∧
    n ≤ c.remaining ∧ Field.At (layout index c.rest) n ⟨.part index part, width⟩ ∧
    after.remaining < width

/-- **The names of a record end within a name.** The cursor stands before the
stretch of names, all of which is there. -/
def EndsWithinName (v : Version) (index : Nat) (c : Cursor) (e : DecodeError) (after : Cursor) :
    Prop :=
  ∃ name offset stretch beyond, e = .truncatedName index name (after.position + offset) ∧
    after = c.forward fixedLength ∧ fixedLength ≤ c.remaining ∧ after.rest = stretch ++ beyond ∧
    stretch.length = namesLength c.rest ∧ NameList.EndsWithin v stretch name offset

theorem lacksPart_of_lacks {index : Nat} {c after : Cursor} {e : DecodeError}
    (h : c.Lacks (layout index c.rest) e after) : LacksPart index c e after := by
  obtain ⟨n, ⟨place, width⟩, hat, hle, hafter, hlt, rfl⟩ := h
  obtain ⟨part, rfl⟩ := exists_part_of_mem_fieldsOf hat.mem
  exact ⟨part, n, width, rfl, hafter, hle, hat, hlt⟩

/-- Names are lacking, or they are there and end within a name. -/
theorem readNames_error {v : Version} {index count length : Nat} {c after : Cursor}
    {e : DecodeError} (h : readNames v index count length c = .error e after)
    (fs : List Field) :
    c.Lacks (⟨.part index .names, length⟩ :: fs) e after ∨
      ∃ name offset stretch beyond, e = .truncatedName index name (c.position + offset) ∧
        after = c ∧ c.rest = stretch ++ beyond ∧ stretch.length = length ∧
        NameList.EndsWithin v stretch name offset := by
  unfold readNames Cursor.take? at h
  cases hsplit : Octets.split? length c.rest with
  | none =>
    rw [hsplit] at h
    cases h
    exact Or.inl (Cursor.lacks_first (Octets.split?_eq_none_iff.mp hsplit) fs)
  | some parts =>
    obtain ⟨stretch, beyond⟩ := parts
    rw [hsplit] at h
    dsimp only at h
    obtain ⟨hrest, hlength⟩ := Octets.split?_eq_some_iff.mp hsplit
    cases hdecode : NameList.decode v count stretch with
    | ok names => rw [hdecode] at h; exact nomatch h
    | error e' =>
      rw [hdecode] at h
      cases h
      exact Or.inr ⟨e'.name, e'.offset, stretch, beyond, rfl, rfl, hrest, hlength,
        NameList.endsWithin_of_decode hdecode⟩

/-- Any of the addresses may be lacking. -/
theorem lacking_readAddresses (index count : Nat) :
    (Reader.times count (readField index .addresses Cursor.address?)).Lacking
      (List.replicate count ⟨.part index .addresses, 4⟩) :=
  Reader.lacking_times Cursor.fixed_address? (fun _ _ => rfl) count

/-- **A record fails for want of a field, or because its names end within a
name.** -/
theorem read_error {v : Version} {index : Nat} {c after : Cursor} {e : DecodeError}
    (h : read v index c = .error e after) :
    LacksPart index c e after ∨ EndsWithinName v index c e after := by
  obtain ⟨position, rest⟩ := c
  refine Or.imp_left lacksPart_of_lacks ?_
  refine Reader.field_bind_error Cursor.fixed_address? (fun _ _ => rfl) h
    fun client _ hclient h₁ => ?_
  refine Reader.field_bind_error Cursor.fixed_u8? (fun _ _ => rfl) h₁
    fun nameCount _ hnameCount h₂ => ?_
  refine Reader.field_bind_error Cursor.fixed_u8? (fun _ _ => rfl) h₂
    fun addressCount _ haddressCount h₃ => ?_
  refine Reader.field_bind_error Cursor.fixed_u16? (fun _ _ => rfl) h₃
    fun length rest' hlength h₄ => ?_
  subst hclient hnameCount haddressCount hlength
  have hnames := namesLength_append client nameCount addressCount length rest'
  rcases Reader.bind_eq_error_iff.mp h₄ with h₅ | ⟨names, ⟨_, beyond⟩, hread, h₅⟩
  · rw [← hnames] at h₅
    refine (readNames_error h₅ _).imp_right ?_
    rintro ⟨name, offset, stretch, beyond, rfl, rfl, hrest, hstretch, hends⟩
    exact ⟨name, offset, stretch, beyond, rfl, rfl, Nat.le_add_left _ _, hrest, hstretch, hends⟩
  · left
    obtain ⟨stretch, ⟨hstretch, -⟩, hrest, hposition⟩ :=
      (accepts_readNames _ _ _ _ _ _ _).mp hread
    simp only at hrest hposition
    subst hrest hposition
    rw [hstretch, ← hnames] at h₅
    exact Cursor.Lacks.cons (hstretch.trans hnames.symm)
      (lacking_readAddresses index addressCount.toNat (Reader.bind_pure_eq_error_iff.mp h₅))

end Record

/-! ## Messages -/

/-- The index of the record that is at fault, if it is one. -/
def DecodeError.record? : DecodeError → Option Nat
  | truncatedHeader _ => none
  | invalidHeader _ _ => none
  | truncatedSnapshot _ _ => none
  | truncatedRecord record _ _ => some record
  | truncatedName record _ _ => some record

namespace Reader

/-- **No failure lies behind the last octet.** -/
def FailsWithin (read : Reader DecodeError α) : Prop :=
  ∀ ⦃c after : Cursor⦄ ⦃e : DecodeError⦄, read c = .error e after → e.offset ≤ c.finish

/-- What is accepted leaves the last octet where it is. -/
theorem Accepts.finish_eq {ε : Type} {read : Reader ε α} {F : WireForm α} (h : read.Accepts F)
    {c after : Cursor} {a : α} (hread : read c = .ok a after) : after.finish = c.finish := by
  obtain ⟨bs, -, hrest, hposition⟩ := (h c after a).mp hread
  rw [Cursor.finish, Cursor.finish, Cursor.remaining, Cursor.remaining, hrest, hposition,
    List.length_append, Nat.add_assoc]

theorem failsWithin_pure (a : α) : FailsWithin (pure a) :=
  fun _ _ _ h => nomatch h

/-- One part and then another. -/
theorem failsWithin_bind {read : Reader DecodeError α} {next : α → Reader DecodeError β}
    {F : WireForm α} (haccepts : read.Accepts F) (hread : read.FailsWithin)
    (hnext : ∀ a, (next a).FailsWithin) : FailsWithin (read >>= next) := by
  intro c after e herror
  rcases bind_eq_error_iff.mp herror with hfirst | ⟨a, mid, hfirst, hsecond⟩
  · exact hread hfirst
  · rw [← haccepts.finish_eq hfirst]
    exact hnext a hsecond

end Reader

namespace Record

theorem failsWithin_read (v : Version) (index : Nat) : (read v index).FailsWithin := by
  intro c after e h
  rcases read_error h with ⟨part, n, width, rfl, rfl, hle, -⟩ |
    ⟨name, offset, stretch, beyond, rfl, rfl, hfixed, hrest, -, hends⟩
  · exact Nat.add_le_add_left hle _
  · have hlength := congrArg List.length hrest
    rw [Cursor.forward, List.length_drop, List.length_append] at hlength
    have hoffset := hends.offset_le
    show c.position + fixedLength + offset ≤ c.position + c.rest.length
    rw [Cursor.remaining] at hfixed
    omega

/-- The record at fault is the one that is read. -/
theorem record?_of_read_error {v : Version} {index : Nat} {c after : Cursor} {e : DecodeError}
    (h : read v index c = .error e after) : e.record? = some index := by
  rcases read_error h with ⟨part, n, width, rfl, -⟩ | ⟨name, offset, stretch, beyond, rfl, -⟩
  · rfl
  · rfl

end Record

/-- A header that is not read is at fault as a whole. -/
theorem Header.read_error {c after : Cursor} {e : DecodeError} (h : read c = .error e after) :
    e.offset = 0 ∧ e.record? = none := by
  unfold read at h
  split at h
  · dsimp only at h
    split at h
    · split at h
      · exact nomatch h
      · cases h
        exact ⟨rfl, rfl⟩
    · cases h
      exact ⟨rfl, rfl⟩
  · cases h
    exact ⟨rfl, rfl⟩

namespace Message

theorem failsWithin_readRecords (v : Version) (index count : Nat) :
    (readRecords v index count).FailsWithin := by
  induction count generalizing index with
  | zero => exact Reader.failsWithin_pure []
  | succ count ih =>
    exact Reader.failsWithin_bind (Record.accepts_read v index) (Record.failsWithin_read v index)
      fun r c after e h => ih (index + 1) (Reader.bind_pure_eq_error_iff.mp h)

theorem failsWithin_readBody (detail : Detail) (h : Header) :
    (readBody detail h).FailsWithin := by
  unfold readBody
  split
  · exact fun c after e herror =>
      (Snapshot.lacking_read h.version (Reader.map_eq_error_iff.mp herror)).offset_le
  · cases detail with
    | full =>
      exact fun c after e herror =>
        failsWithin_readRecords h.version 0 h.setCount.toNat (Reader.map_eq_error_iff.mp herror)
    | headerOnly => exact Reader.failsWithin_pure _

/-- **No failure lies behind the last octet of a message**, however much of it
is read. -/
theorem failsWithin_read (detail : Detail) : (read detail).FailsWithin := by
  refine Reader.failsWithin_bind Header.accepts_read (fun c after e h => ?_)
    fun header c after e h => ?_
  · rw [(Header.read_error h).1]
    exact Nat.zero_le _
  · exact failsWithin_readBody detail header (Reader.bind_pure_eq_error_iff.mp h)

/-- **The record at fault is one of those that are read.** -/
theorem record?_of_readRecords_error {v : Version} {index count : Nat} {c after : Cursor}
    {e : DecodeError} (h : readRecords v index count c = .error e after) :
    ∃ record, e.record? = some record ∧ index ≤ record ∧ record < index + count := by
  induction count generalizing index c with
  | zero => exact nomatch h
  | succ count ih =>
    rcases Reader.bind_eq_error_iff.mp h with h | ⟨r, mid, -, h⟩
    · exact ⟨index, Record.record?_of_read_error h, Nat.le_refl _,
        Nat.lt_add_of_pos_right (Nat.succ_pos _)⟩
    · obtain ⟨record, hrecord, hle, hlt⟩ := ih (Reader.bind_pure_eq_error_iff.mp h)
      exact ⟨record, hrecord, Nat.le_of_succ_le hle, by omega⟩

/-- **A record that is at fault is one of those that the header announces.** -/
theorem record?_of_decode_error {detail : Detail} {p : Octets} {e : DecodeError}
    (h : decode detail p = .error e) {record : Nat} (hrecord : e.record? = some record) :
    ∃ header body, Header.read (Cursor.start p) = .ok header body ∧
      record < header.setCount.toNat := by
  obtain ⟨after, hread⟩ := decode_eq_error_iff_read.mp h
  rcases Reader.bind_eq_error_iff.mp hread with hheader | ⟨header, body, hheader, hbody⟩
  · exact nomatch hrecord.symm.trans (Header.read_error hheader).2
  · refine ⟨header, body, hheader, ?_⟩
    have hfail := Reader.bind_pure_eq_error_iff.mp hbody
    unfold readBody at hfail
    split at hfail
    · obtain ⟨counter, n, rfl, -⟩ := Snapshot.read_error (Reader.map_eq_error_iff.mp hfail)
      exact nomatch hrecord
    · cases detail with
      | headerOnly => exact nomatch hfail
      | full =>
        obtain ⟨record', hrecord', -, hlt⟩ :=
          record?_of_readRecords_error (Reader.map_eq_error_iff.mp hfail)
        cases hrecord.symm.trans hrecord'
        rwa [Nat.zero_add] at hlt

/-- **Errors say where reading stopped.** A record that is read takes as many
octets as it announces. If it is not read, then either the cursor stands where
the field begins that is lacking, or all of its names are there and the cursor
stands before them, and they end within the name, and at the offset, that are
reported. Counters that are not read lack a counter where the cursor stands. No
error of a message lies outside of the message or is about a record that the
header does not announce. -/
theorem errors_located :
    (∀ (v : Version) (index : Nat) (c after : Cursor),
      (∀ r, Record.read v index c = .ok r after →
        Record.extent c.rest ≤ c.remaining ∧ after = c.forward (Record.extent c.rest)) ∧
      (∀ e, Record.read v index c = .error e after →
        Record.LacksPart index c e after ∨ Record.EndsWithinName v index c e after)) ∧
    (∀ (v : Version) (c after : Cursor) (e : DecodeError), Snapshot.read v c = .error e after →
      ∃ counter n, e = .truncatedSnapshot after.position counter ∧ after = c.forward n ∧
        n ≤ c.remaining ∧ Field.At (Snapshot.fields v) n ⟨.counter counter, 4⟩ ∧ 4 ∣ n ∧
        after.remaining < 4) ∧
    ∀ (detail : Detail) (p : Octets) (e : DecodeError), decode detail p = .error e →
      e.offset ≤ p.length ∧ ∀ record, e.record? = some record →
        ∃ header body, Header.read (Cursor.start p) = .ok header body ∧
          record < header.setCount.toNat := by
  refine ⟨fun v index c after => ⟨fun r h => ?_, fun e h => Record.read_error h⟩,
    fun v c after e h => Snapshot.read_error h, fun detail p e h => ⟨?_, fun record hrecord =>
      record?_of_decode_error h hrecord⟩⟩
  · obtain ⟨bs, hform, hrest, hle, hafter⟩ := (Record.accepts_read v index).eq_forward h
    rw [hrest, hform.extent_append]
    exact ⟨hle, hafter⟩
  · obtain ⟨after, hread⟩ := decode_eq_error_iff_read.mp h
    have hle := failsWithin_read detail hread
    rwa [Cursor.finish, Cursor.start, Nat.zero_add] at hle

/-- A label of five octets of which the names hold one. The addresses behind
the names are not taken for the rest of it. -/
example : Record.read .v1 2 ⟨20, [10, 0, 0, 1, 1, 1, 0, 4, 1, 97, 5, 98, 192, 0, 2, 1]⟩ =
    .error (.truncatedName 2 0 31) ⟨28, [1, 97, 5, 98, 192, 0, 2, 1]⟩ := by
  cbv

end Message

end FlowTelemetry

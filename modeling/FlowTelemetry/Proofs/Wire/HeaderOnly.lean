import FlowTelemetry.Proofs.Wire.Truncation

/-!
# Reading headers only

A reader that leaves the records where they are should not come to another
verdict than one that reads everything, except about the records. `Compared`
lists what may come of reading the same octets both ways: they are refused for
the same reason; or a message is read, once with its records and once without;
or there is something wrong with a record, which only one of the two can know.
There is no fourth (`Message.decode_compared`).

That it is a record which is at fault in the last case is a matter of which
errors a reader can fail with at all. Of a reader put together from others
this is known as soon as it is known of its parts (`Reader.FailsWith`).
-/

namespace FlowTelemetry

variable {ε α β : Type}

/-- Whether octets were refused for the sake of a record. -/
def DecodeError.concernsRecord : DecodeError → Bool
  | truncatedRecord _ _ _ => true
  | truncatedName _ _ _ => true
  | truncatedHeader _ => false
  | invalidHeader _ _ => false
  | truncatedSnapshot _ _ => false

/-! ## Which errors there can be -/

namespace Reader

/-- **All errors of a reader are of one kind.** -/
def FailsWith (kind : ε → Prop) (read : Reader ε α) : Prop :=
  ∀ ⦃c after : Cursor⦄ ⦃e : ε⦄, read c = .error e after → kind e

variable {kind : ε → Prop} {read : Reader ε α}

theorem failsWith_pure (a : α) : FailsWith kind (pure a) :=
  fun _ _ _ h => nomatch h

/-- The errors of two parts are those of either. -/
theorem FailsWith.bind {next : α → Reader ε β} (hread : read.FailsWith kind)
    (hnext : ∀ a, (next a).FailsWith kind) : FailsWith kind (read >>= next) := by
  intro c after e herror
  rcases bind_eq_error_iff.mp herror with hfirst | ⟨a, mid, -, hsecond⟩
  · exact hread hfirst
  · exact hnext a hsecond

/-- What was read may be renamed. -/
theorem map_eq_ok {c after : Cursor} {a : α} (h : read c = .ok a after) {g : α → β} :
    (g <$> read) c = .ok (g a) after := by
  rw [← bind_pure_comp]
  exact bind_eq_ok_iff.mpr ⟨a, after, h, rfl⟩

/-- Renaming does not change an error. -/
theorem map_eq_error {c after : Cursor} {e : ε} (h : read c = .error e after) {g : α → β} :
    (g <$> read) c = .error e after := by
  rw [← bind_pure_comp]
  exact bind_eq_error_iff.mpr (Or.inl h)

/-- A single field has a single error, but for its position. -/
theorem failsWith_field {take : Cursor → Option (α × Cursor)} {short : Nat → ε}
    (hshort : ∀ position, kind (short position)) : FailsWith kind (field take short) := by
  intro c after e herror
  unfold field at herror
  split at herror
  · exact nomatch herror
  · cases herror
    exact hshort c.position

theorem FailsWith.times (hread : read.FailsWith kind) (n : Nat) :
    (Reader.times n read).FailsWith kind := by
  induction n with
  | zero => exact failsWith_pure []
  | succ n ih => exact hread.bind fun a => ih.bind fun as => failsWith_pure (a :: as)

end Reader

namespace Record

/-- The names of a record that cannot be read are at fault themselves, whether
they are not all there or end within a name. -/
theorem failsWith_readNames (v : Version) (index count length : Nat) :
    (readNames v index count length).FailsWith (·.concernsRecord = true) := by
  intro c after e herror
  unfold readNames at herror
  split at herror
  · cases herror
    rfl
  · split at herror
    · exact nomatch herror
    · cases herror
      rfl

/-- **A record that cannot be read is at fault itself.** -/
theorem failsWith_read (v : Version) (index : Nat) :
    (read v index).FailsWith (·.concernsRecord = true) := by
  refine Reader.FailsWith.bind (Reader.failsWith_field fun _ => rfl) fun client => ?_
  refine Reader.FailsWith.bind (Reader.failsWith_field fun _ => rfl) fun nameCount => ?_
  refine Reader.FailsWith.bind (Reader.failsWith_field fun _ => rfl) fun addressCount => ?_
  refine Reader.FailsWith.bind (Reader.failsWith_field fun _ => rfl) fun length => ?_
  refine (failsWith_readNames v index nameCount.toNat length.toNat).bind fun names => ?_
  have haddress :
      (readField index .addresses Cursor.address?).FailsWith (·.concernsRecord = true) :=
    Reader.failsWith_field fun _ => rfl
  exact (haddress.times addressCount.toNat).bind fun addresses => Reader.failsWith_pure _

end Record

namespace Message

/-- So are several records. -/
theorem failsWith_readRecords (v : Version) (index count : Nat) :
    (readRecords v index count).FailsWith (·.concernsRecord = true) := by
  induction count generalizing index with
  | zero => exact Reader.failsWith_pure []
  | succ count ih =>
    exact (Record.failsWith_read v index).bind fun r =>
      (ih (index + 1)).bind fun rs => Reader.failsWith_pure (r :: rs)

end Message

/-! ## Both ways compared -/

/-- What is left of a body if no records are read. -/
def Body.withoutRecords : Body → Body
  | .stats s => .stats s
  | .records _ => .records []

theorem Body.recordList_withoutRecords (body : Body) : body.withoutRecords.recordList = [] := by
  cases body <;> rfl

/-- **What is left of a message if no records are read**: its header as it is,
and its counters if it has any. -/
def Message.withoutRecords (m : Message) : Message := { m with body := m.body.withoutRecords }

/-- **What comes of reading the same octets both ways**, in full and without
the records. -/
inductive Detail.Compared : Except DecodeError Message → Except DecodeError Message → Prop
  /-- The octets are refused for the same reason. -/
  | refused (e : DecodeError) : Compared (.error e) (.error e)
  /-- The same message is read. -/
  | read (m : Message) : Compared (.ok m) (.ok m.withoutRecords)
  /-- A record is at fault. -/
  | atFault {e : DecodeError} (h : e.concernsRecord = true) (header : Header) :
    Compared (.error e) (.ok ⟨header, .records []⟩)

namespace Message

section Decode

variable {detail : Detail} {p : Octets} {header : Header} {mid after : Cursor}

/-- Octets without a header are refused, however much of them is read. -/
theorem decode_of_header_error {e : DecodeError}
    (h : Header.read (Cursor.start p) = .error e after) : decode detail p = .error e :=
  decode_eq_error_iff_read.mpr ⟨after, Reader.bind_eq_error_iff.mpr (Or.inl h)⟩

theorem decode_of_body_error {e : DecodeError}
    (hheader : Header.read (Cursor.start p) = .ok header mid)
    (hbody : readBody detail header mid = .error e after) : decode detail p = .error e := by
  refine decode_eq_error_iff_read.mpr ⟨after, Reader.bind_eq_error_iff.mpr (Or.inr ?_)⟩
  exact ⟨header, mid, hheader, Reader.bind_eq_error_iff.mpr (Or.inl hbody)⟩

theorem decode_of_body {body : Body} (hheader : Header.read (Cursor.start p) = .ok header mid)
    (hbody : readBody detail header mid = .ok body after) :
    decode detail p = .ok ⟨header, body⟩ := by
  refine decode_eq_ok_iff_read.mpr ⟨after, Reader.bind_eq_ok_iff.mpr ⟨header, mid, hheader, ?_⟩⟩
  exact Reader.bind_eq_ok_iff.mpr ⟨body, after, hbody, rfl⟩

end Decode

/-- **The records are all that the two verdicts can differ for.** Up to the
end of the header, and in counters, both ways are one and the same. -/
theorem decode_compared (p : Octets) :
    Detail.Compared (decode .full p) (decode .headerOnly p) := by
  cases hheader : Header.read (Cursor.start p) with
  | error e after =>
    rw [decode_of_header_error hheader, decode_of_header_error hheader]
    exact .refused e
  | ok header mid =>
    by_cases hstats : header.isStats
    · have hbody : ∀ detail, readBody detail header = Body.stats <$> Snapshot.read header.version :=
        fun _ => if_pos hstats
      cases hread : Snapshot.read header.version mid with
      | error e after =>
        have herror := fun detail => (congrFun (hbody detail) mid).trans (Reader.map_eq_error hread)
        rw [decode_of_body_error hheader (herror _), decode_of_body_error hheader (herror _)]
        exact .refused e
      | ok s after =>
        have hok := fun detail => (congrFun (hbody detail) mid).trans (Reader.map_eq_ok hread)
        rw [decode_of_body hheader (hok _), decode_of_body hheader (hok _)]
        exact .read ⟨header, .stats s⟩
    · have hnone : readBody .headerOnly header mid = .ok (.records []) mid :=
        congrFun (if_neg hstats) mid
      have hbody : readBody .full header =
          Body.records <$> readRecords header.version 0 header.setCount.toNat := if_neg hstats
      rw [decode_of_body hheader hnone]
      cases hread : readRecords header.version 0 header.setCount.toNat mid with
      | error e after =>
        rw [decode_of_body_error hheader ((congrFun hbody mid).trans (Reader.map_eq_error hread))]
        exact .atFault (failsWith_readRecords _ _ _ hread) header
      | ok rs after =>
        rw [decode_of_body hheader ((congrFun hbody mid).trans (Reader.map_eq_ok hread))]
        exact .read ⟨header, .records rs⟩

section Verdicts

variable {p : Octets} {m : Message} {e : DecodeError}

/-- What is refused without its records is refused with them for the same
reason. -/
theorem decode_full_of_headerOnly_error (h : decode .headerOnly p = .error e) :
    decode .full p = .error e := by
  have hcompared := decode_compared p
  rw [h] at hcompared
  generalize decode .full p = verdict at hcompared ⊢
  cases hcompared with
  | refused e => rfl

/-- What is read with its records is read without them. -/
theorem decode_headerOnly_of_full_ok (h : decode .full p = .ok m) :
    decode .headerOnly p = .ok m.withoutRecords := by
  have hcompared := decode_compared p
  rw [h] at hcompared
  generalize decode .headerOnly p = verdict at hcompared ⊢
  cases hcompared with
  | read m => rfl

/-- What is refused only with its records is refused for the sake of one. -/
theorem concernsRecord_of_decode (hfull : decode .full p = .error e)
    (hlight : decode .headerOnly p = .ok m) : e.concernsRecord = true := by
  have hcompared := decode_compared p
  rw [hfull, hlight] at hcompared
  cases hcompared with
  | atFault h header => exact h

end Verdicts

/-- Without the records there are none. -/
theorem recordList_of_decode_headerOnly {p : Octets} {m : Message}
    (h : decode .headerOnly p = .ok m) : m.body.recordList = [] := by
  have hcompared := decode_compared p
  rw [h] at hcompared
  generalize decode .full p = verdict at hcompared
  cases hcompared with
  | read m => exact m.body.recordList_withoutRecords
  | atFault => rfl

end Message

end FlowTelemetry

import FlowTelemetry.Proofs.Wire.Truncation

/-!
# Messages that go on

Some verdicts on a datagram are final: a message that was read, a header that
was refused, and names that end within a name. More octets behind the datagram
do not change them. The other verdicts say that octets are missing, and these
are the ones that all prefixes of a message get.

A success is final because a reader that accepts a form does not look at what
follows the form. An error has to be followed through the readers
(`Reader.Settles`): up to the part with the error all parts were accepted, and
within that part the error is either for want of octets or it was found in
octets that were there.

`decode_full_take_append` says both of whole datagrams, of what they become
when octets are taken away from their end and when octets are added to it.
-/

namespace FlowTelemetry

open WireForm

variable {α β : Type}

/-- **A final error** is found in octets that are there, and not for want of
them. -/
def DecodeError.IsFinal : DecodeError → Prop
  | .invalidHeader _ _ => True
  | .truncatedName _ _ _ => True
  | .truncatedHeader _ => False
  | .truncatedSnapshot _ _ => False
  | .truncatedRecord _ _ _ => False

namespace Cursor

/-- The same place if more octets follow. -/
def extend (c : Cursor) (more : Octets) : Cursor := { c with rest := c.rest ++ more }

/-- Octets that are there are taken whatever follows. -/
theorem take?_extend {n : Nat} {c after : Cursor} {bs : Octets} (h : c.take? n = some (bs, after))
    (more : Octets) : (c.extend more).take? n = some (bs, after.extend more) := by
  unfold take? at h
  split at h
  · next first rest hsplit =>
    cases h
    obtain ⟨hrest, hlength⟩ := Octets.split?_eq_some_iff.mp hsplit
    have hsplit' : Octets.split? n (c.rest ++ more) = some (bs, rest ++ more) :=
      Octets.split?_eq_some_iff.mpr ⟨by rw [hrest, List.append_assoc], hlength⟩
    unfold take? extend
    rw [hsplit']
  · exact nomatch h

end Cursor

namespace Reader

/-- What was accepted is accepted whatever follows. -/
theorem Accepts.extend {ε : Type} {read : Reader ε α} {F : WireForm α} (h : read.Accepts F)
    {c after : Cursor} {a : α} (hread : read c = .ok a after) (more : Octets) :
    read (c.extend more) = .ok a (after.extend more) := by
  obtain ⟨bs, hF, hrest, hposition⟩ := (h c after a).mp hread
  refine (h _ _ _).mpr ⟨bs, hF, ?_, hposition⟩
  show c.rest ++ more = bs ++ (after.rest ++ more)
  rw [hrest, List.append_assoc]

/-- **A reader settles its final errors**: more octets do not change them. -/
def Settles (read : Reader DecodeError α) : Prop :=
  ∀ ⦃c after : Cursor⦄ ⦃e : DecodeError⦄ (more : Octets), e.IsFinal → read c = .error e after →
    ∃ after', read (c.extend more) = .error e after'

theorem settles_pure (a : α) : Settles (pure a) :=
  fun _ _ _ _ _ h => nomatch h

/-- One part and then another. -/
theorem settles_bind {read : Reader DecodeError α} {next : α → Reader DecodeError β}
    {F : WireForm α} (haccepts : read.Accepts F) (hread : read.Settles)
    (hnext : ∀ a, (next a).Settles) : Settles (read >>= next) := by
  intro c after e more hfinal herror
  rcases bind_eq_error_iff.mp herror with hfirst | ⟨a, mid, hfirst, hsecond⟩
  · obtain ⟨after', hfirst'⟩ := hread more hfinal hfirst
    exact ⟨after', bind_eq_error_iff.mpr (Or.inl hfirst')⟩
  · obtain ⟨after', hsecond'⟩ := hnext a more hfinal hsecond
    exact ⟨after', bind_eq_error_iff.mpr (Or.inr ⟨a, _, haccepts.extend hfirst more, hsecond'⟩)⟩

/-- One part, of which something is made. -/
theorem Settles.bind_pure {read : Reader DecodeError α} (h : read.Settles) (g : α → β) :
    Settles (read >>= fun a => pure (g a)) := by
  intro c after e more hfinal herror
  rcases bind_eq_error_iff.mp herror with hfirst | ⟨_, _, -, hpure⟩
  · obtain ⟨after', hfirst'⟩ := h more hfinal hfirst
    exact ⟨after', bind_eq_error_iff.mpr (Or.inl hfirst')⟩
  · exact nomatch hpure

theorem Settles.map {read : Reader DecodeError α} (h : read.Settles) (g : α → β) :
    (g <$> read).Settles := by
  rw [← bind_pure_comp]
  exact h.bind_pure g

/-- A single field is never wrong, it is only not there. -/
theorem settles_field {take : Cursor → Option (α × Cursor)} {short : Nat → DecodeError}
    (hshort : ∀ position, ¬ (short position).IsFinal) : Settles (field take short) := by
  intro c after e more hfinal herror
  unfold field at herror
  split at herror
  · exact nomatch herror
  · cases herror
    exact absurd hfinal (hshort c.position)

/-- A field and then another part. -/
theorem settles_field_bind {take : Cursor → Option (α × Cursor)} {F : WireForm α}
    {short : Nat → DecodeError} {next : α → Reader DecodeError β} (htakes : Cursor.Takes take F)
    (hshort : ∀ position, ¬ (short position).IsFinal) (hnext : ∀ a, (next a).Settles) :
    Settles (field take short >>= next) :=
  settles_bind (accepts_field htakes short) (settles_field hshort) hnext

theorem settles_times {read : Reader DecodeError α} {F : WireForm α} (haccepts : read.Accepts F)
    (hread : read.Settles) (n : Nat) : (times n read).Settles := by
  induction n with
  | zero => exact settles_pure []
  | succ n ih =>
    exact settles_bind haccepts hread fun a => ih.bind_pure (a :: ·)

end Reader

/-! ## The parts of a message -/

namespace Record

/-- Names that end within a name do so in a stretch that is there. -/
theorem settles_readNames (v : Version) (index count length : Nat) :
    (readNames v index count length).Settles := by
  intro c after e more hfinal herror
  unfold readNames at herror
  split at herror
  · cases herror
    exact hfinal.elim
  · next stretch beyond htake =>
    split at herror
    · exact nomatch herror
    · next e' hdecode =>
      cases herror
      refine ⟨c.extend more, ?_⟩
      unfold readNames
      rw [Cursor.take?_extend htake]
      dsimp only
      rw [hdecode]
      rfl

/-- **A record settles its final errors.** -/
theorem settles_read (v : Version) (index : Nat) : (read v index).Settles := by
  refine Reader.settles_field_bind Cursor.takes_address? (fun _ => id) fun client => ?_
  refine Reader.settles_field_bind Cursor.takes_u8? (fun _ => id) fun nameCount => ?_
  refine Reader.settles_field_bind Cursor.takes_u8? (fun _ => id) fun addressCount => ?_
  refine Reader.settles_field_bind Cursor.takes_u16? (fun _ => id) fun length => ?_
  refine Reader.settles_bind (accepts_readNames v index nameCount.toNat length.toNat)
    (settles_readNames v index nameCount.toNat length.toNat) fun names => ?_
  refine Reader.Settles.bind_pure ?_ _
  exact Reader.settles_times (Reader.accepts_field Cursor.takes_address? _)
    (Reader.settles_field fun _ => id) addressCount.toNat

end Record

namespace Snapshot

/-- Counters have no final errors. -/
theorem settles_read (v : Version) : (read v).Settles := by
  have hrate : (readRate v).Settles := by
    unfold readRate
    split
    · exact (Reader.settles_field fun _ => id).map some
    · exact Reader.settles_pure none
  rw [read_eq]
  refine Reader.settles_field_bind Cursor.takes_u32? (fun _ => id) fun captured => ?_
  refine Reader.settles_field_bind Cursor.takes_u32? (fun _ => id) fun received => ?_
  refine Reader.settles_field_bind Cursor.takes_u32? (fun _ => id) fun dropped => ?_
  refine Reader.settles_field_bind Cursor.takes_u32? (fun _ => id) fun interfaceDropped => ?_
  exact hrate.bind_pure _

end Snapshot

/-- A header that is refused is refused for octets that are there. -/
theorem Header.settles_read : Header.read.Settles := by
  intro c after e more hfinal herror
  unfold read at herror
  split at herror
  · next position v n f₁ f₀ s₃ s₂ s₁ s₀ rest =>
    refine ⟨after.extend more, ?_⟩
    show read ⟨position, v :: n :: f₁ :: f₀ :: s₃ :: s₂ :: s₁ :: s₀ :: (rest ++ more)⟩ = _
    unfold read
    dsimp only at herror ⊢
    split at herror
    · split at herror
      · exact nomatch herror
      · next hannounces =>
        cases herror
        rw [if_neg hannounces]
        rfl
    · cases herror
      rfl
  · cases herror
    exact hfinal.elim

namespace Message

theorem settles_readRecords (v : Version) (index count : Nat) :
    (readRecords v index count).Settles := by
  induction count generalizing index with
  | zero => exact Reader.settles_pure []
  | succ count ih =>
    exact Reader.settles_bind (Record.accepts_read v index) (Record.settles_read v index) fun r =>
      (ih (index + 1)).bind_pure (r :: ·)

theorem settles_readBody (h : Header) : (readBody .full h).Settles := by
  unfold readBody
  split
  · exact (Snapshot.settles_read h.version).map Body.stats
  · exact (settles_readRecords h.version 0 h.setCount.toNat).map Body.records

/-- **A message settles its final errors.** -/
theorem settles_read : (read .full).Settles :=
  Reader.settles_bind Header.accepts_read Header.settles_read fun header =>
    (settles_readBody header).bind_pure (Message.mk header)

/-- A message that was read is read whatever follows it. -/
theorem decode_append_of_ok {p : Octets} {m : Message} (h : decode .full p = .ok m)
    (more : Octets) : decode .full (p ++ more) = .ok m := by
  obtain ⟨after, hread⟩ := decode_eq_ok_iff_read.mp h
  exact decode_eq_ok_iff_read.mpr ⟨_, accepts_read.extend hread more⟩

theorem decode_append_of_error {p : Octets} {e : DecodeError} (hfinal : e.IsFinal)
    (h : decode .full p = .error e) (more : Octets) : decode .full (p ++ more) = .error e := by
  obtain ⟨after, hread⟩ := decode_eq_error_iff_read.mp h
  exact decode_eq_error_iff_read.mpr (settles_read more hfinal hread)

/-- **Every cut is found and located, and more octets change no final
verdict.** If a message was read, then each of the octets up to where reading
ended belongs to a field of the message, and the octets before it are refused
for the lack of that field. If a message was read or octets that are there were
refused, the verdict stays the same whatever follows. -/
theorem decode_full_take_append (p : Octets) :
    (∀ m after, read .full (Cursor.start p) = .ok m after →
      Field.total (m.fields p) = after.position ∧
      ∀ k < after.position,
        (k < Header.length → decode .full (p.take k) = .error (.truncatedHeader k)) ∧
        (Header.length ≤ k → match m.body with
          | .stats _ => ∃ offset counter,
            Field.Covers (m.fields p) offset ⟨.counter counter, 4⟩ k ∧
              decode .full (p.take k) = .error (.truncatedSnapshot offset counter)
          | .records _ => ∃ offset record part width,
            Field.Covers (m.fields p) offset ⟨.part record part, width⟩ k ∧
              decode .full (p.take k) = .error (.truncatedRecord record offset part))) ∧
    ∀ more,
      (∀ m, decode .full p = .ok m → decode .full (p ++ more) = .ok m) ∧
      (∀ e, e.IsFinal → decode .full p = .error e → decode .full (p ++ more) = .error e) := by
  refine ⟨fun m after hread => ?_, fun more =>
    ⟨fun m h => decode_append_of_ok h more, fun e hfinal h => decode_append_of_error hfinal h more⟩⟩
  obtain ⟨bs, hform, hp, hposition⟩ := (accepts_read _ _ _).mp hread
  have hp' : p = bs ++ after.rest := hp
  have hlength : after.position = bs.length := hposition.trans (Nat.zero_add _)
  rw [hlength, hp']
  refine ⟨(locates_read hform after.rest).1, fun k hk => ?_⟩
  obtain ⟨offset, f, hcovers, herror⟩ := decode_take_eq_error hform after.rest hk
  rcases hcovers.first_or_later with ⟨hfirst, rfl, rfl⟩ | ⟨hlater, hmem⟩
  · exact ⟨fun _ => herror, fun hle => absurd hfirst (Nat.not_lt.mpr hle)⟩
  · refine ⟨fun hlt => absurd hlt (Nat.not_lt.mpr hlater), fun _ => ?_⟩
    obtain ⟨header, body⟩ := m
    cases body with
    | stats s =>
      obtain ⟨counter, rfl⟩ := Snapshot.exists_counter_of_mem hmem
      exact ⟨offset, counter, hcovers, herror⟩
    | records rs =>
      obtain ⟨record, part, hplace⟩ := exists_part_of_mem hmem
      obtain ⟨place, width⟩ := f
      cases hplace
      exact ⟨offset, record, part, width, hcovers, herror⟩

/-- A record that is cut off within the five octets of its names. -/
example : decode .full [0, 1, 0, 0, 0, 0, 0, 7, 10, 0, 0, 1, 1, 1, 0, 5, 97, 46] =
    .error (.truncatedRecord 0 16 .names) := rfl

end Message

end FlowTelemetry

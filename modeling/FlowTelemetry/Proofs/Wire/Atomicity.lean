import FlowTelemetry.Proofs.Wire.Writing
import FlowTelemetry.Wire.Layout

/-!
# Lengths in front are all or nothing

A length is written before the stretch that it is the length of, and so before
it is known. If anything goes wrong after that, there would be a placeholder in
the buffer that reads as a length. `Layout.write_lengthPrefixed` says that this
does not happen, whatever is to be written and however deep lengths are nested:
either the buffer has grown by the stretch behind its own length, or it is what
it was.

Going back to where the stretch began undoes it only if nothing else has been
done to the buffer. A stretch may be anything that layouts can describe, and
among these padding depends on where it is written, so it has no effect that is
the same everywhere. What is needed of it is less: whether it succeeds or fails,
it has added octets and not touched those before them (`Writer.Adds`). A stretch
with a length in front is such a thing again, since the length is put over the
placeholder and reaches no further, and that is why levels can be nested
(`Writer.adds_lengthPrefixed`).
-/

namespace FlowTelemetry

/-- A buffer has grown by octets that there is room for, be it with a success or
with a failure. -/
def Buffer.Grown (b : Buffer) (r : EStateM.Result EncodeError Buffer Unit) : Prop :=
  ∃ bs : Octets, b.admits (b.size + bs.length) ∧
    (r = .ok () (b.extend bs) ∨ ∃ e, r = .error e (b.extend bs))

/-- A failure that leaves a buffer as it was. -/
theorem Buffer.grown_error {b : Buffer} (hb : b.admits b.size) (e : EncodeError) :
    b.Grown (.error e b) :=
  ⟨[], hb, Or.inr ⟨e, by rw [Buffer.extend_nil]⟩⟩

namespace Writer

/-- **A writer only adds**: it lets every buffer grow that is within its limit. -/
def Adds (w : Writer Unit) : Prop := ∀ b : Buffer, b.admits b.size → b.Grown (w b)

/-- What has an effect everywhere only adds. -/
theorem Realises.adds {w : Writer Unit} {x : Effect} (h : w.Realises x) : w.Adds := by
  intro b hb
  cases h b hb with
  | whole room ends =>
    refine ⟨x.added, room, ?_⟩
    rw [ends, Effect.on]
    cases x.failure with
    | none => exact Or.inl rfl
    | some e => exact Or.inr ⟨e, rfl⟩
  | short kept more _ _ room _ ends => exact ⟨kept, room, Or.inr ⟨.shortBuffer, ends⟩⟩

/-- Padding adds zeros, whose number depends on what is there. -/
theorem adds_padToWord (start : Nat) : (padToWord start).Adds :=
  fun b hb => (realises_append (Octets.wordPadding (b.size - start))).adds b hb

/-- One writer and then another. -/
theorem adds_seq {w w' : Writer Unit} (hw : w.Adds) (hw' : w'.Adds) :
    Adds (do w; w') := by
  intro b hb
  obtain ⟨bs, hroom, hends | ⟨e, hends⟩⟩ := hw b hb
  · have hseq : (do w; w' : Writer Unit) b = w' (b.extend bs) := by
      show EStateM.bind w (fun _ => w') b = _
      rw [EStateM.bind, hends]
    rw [hseq]
    obtain ⟨more, hroom', hends'⟩ := hw' (b.extend bs) (by rwa [Buffer.size_extend])
    rw [Buffer.admits_extend, ← List.length_append] at hroom'
    rw [Buffer.extend_extend] at hends'
    exact ⟨bs ++ more, hroom', hends'⟩
  · refine ⟨bs, hroom, Or.inr ⟨e, ?_⟩⟩
    show EStateM.bind w (fun _ => w') b = _
    rw [EStateM.bind, hends]

/-! ## A stretch and its length -/

section LengthPrefixed

variable {op : Writer Unit} {b : Buffer}

/-- Behind the placeholder the stretch is written. -/
theorem append_placeholder (h : b.admits (b.size + 2)) :
    (do append [0, 0]; op : Writer Unit) b = op (b.extend [0, 0]) := by
  have happend : append [0, 0] b = .ok () (b.extend [0, 0]) := if_pos h
  show EStateM.bind (append [0, 0]) (fun _ => op) b = _
  rw [EStateM.bind, happend]

/-- If there is no room for the placeholder, nothing is done. -/
theorem lengthPrefixed_of_not_admits (h : ¬ b.admits (b.size + 2)) :
    lengthPrefixed op b = .error .shortBuffer b := by
  have happend : append [0, 0] b = .error .shortBuffer b := if_neg h
  have hframed : (do append [0, 0]; op : Writer Unit) b = .error .shortBuffer (b.extend []) := by
    show EStateM.bind (append [0, 0]) (fun _ => op) b = _
    rw [EStateM.bind, happend, Buffer.extend_nil]
  unfold lengthPrefixed
  simp only [hframed, Buffer.truncate_extend]

/-- If the stretch fails, it is taken back with its placeholder. -/
theorem lengthPrefixed_of_error (h : b.admits (b.size + 2)) {e : EncodeError} {bs : Octets}
    (hop : op (b.extend [0, 0]) = .error e ((b.extend [0, 0]).extend bs)) :
    lengthPrefixed op b = .error e b := by
  unfold lengthPrefixed
  simp only [append_placeholder h, hop, Buffer.extend_extend, Buffer.truncate_extend]

/-- If the stretch succeeds, it stays behind its length, unless it is too long to
have one. -/
theorem lengthPrefixed_of_ok (h : b.admits (b.size + 2)) {bs : Octets}
    (hop : op (b.extend [0, 0]) = .ok () ((b.extend [0, 0]).extend bs)) :
    lengthPrefixed op b =
      if bs.length ≤ maxFieldLength then
        .ok () (b.extend (Octets.ofUInt16 (UInt16.ofNat bs.length) ++ bs))
      else .error .longData b := by
  have hlength : (b.extend ([0, 0] ++ bs)).size - (b.size + 2) = bs.length := by
    rw [Buffer.size_extend, List.length_append, ← Nat.add_assoc]
    exact Nat.add_sub_cancel_left ..
  have hpatch : (b.extend ([0, 0] ++ bs)).patch b.size (UInt16.ofNat bs.length) =
      b.extend (Octets.ofUInt16 (UInt16.ofNat bs.length) ++ bs) := b.patch_extend 0 0 bs _
  unfold lengthPrefixed
  simp only [append_placeholder h, hop, Buffer.extend_extend, hlength, hpatch,
    Buffer.truncate_extend]

/-- **How a stretch with its length in front ends.** -/
inductive Prefixed (op : Writer Unit) (b : Buffer) :
    EStateM.Result EncodeError Buffer Unit → Prop
  /-- There is no room for the placeholder. -/
  | noRoom (lack : ¬ b.admits (b.size + 2)) : Prefixed op b (.error .shortBuffer b)
  /-- The stretch fails. -/
  | failed {e : EncodeError} {bs : Octets} (room : b.admits (b.size + 2))
      (ends : op (b.extend [0, 0]) = .error e ((b.extend [0, 0]).extend bs)) :
      Prefixed op b (.error e b)
  /-- The stretch is too long to have a length. -/
  | tooLong {bs : Octets} (room : b.admits (b.size + 2))
      (ends : op (b.extend [0, 0]) = .ok () ((b.extend [0, 0]).extend bs))
      (long : maxFieldLength < bs.length) : Prefixed op b (.error .longData b)
  /-- The stretch is behind its length. -/
  | written {bs : Octets} (room : b.admits (b.size + 2))
      (ends : op (b.extend [0, 0]) = .ok () ((b.extend [0, 0]).extend bs))
      (fits : bs.length ≤ maxFieldLength) (within : b.admits (b.size + (2 + bs.length))) :
      Prefixed op b (.ok () (b.extend (Octets.ofUInt16 (UInt16.ofNat bs.length) ++ bs)))

theorem prefixed_lengthPrefixed (hop : op.Adds) (b : Buffer) :
    Prefixed op b (lengthPrefixed op b) := by
  by_cases hroom : b.admits (b.size + 2)
  · obtain ⟨bs, hwithin, hends | ⟨e, hends⟩⟩ := hop (b.extend [0, 0]) (by rwa [Buffer.size_extend])
    · rw [lengthPrefixed_of_ok hroom hends]
      split
      · next hfits => exact .written hroom hends hfits (Buffer.admits_extend.mp hwithin)
      · next hlong => exact .tooLong hroom hends (Nat.lt_of_not_le hlong)
    · rw [lengthPrefixed_of_error hroom hends]
      exact .failed hroom hends
  · rw [lengthPrefixed_of_not_admits hroom]
    exact .noRoom hroom

/-- **A stretch with its length in front only adds**, and so may be a part of
another one. -/
theorem adds_lengthPrefixed (hop : op.Adds) : (lengthPrefixed op).Adds := by
  intro b hb
  have hprefixed := prefixed_lengthPrefixed hop b
  generalize lengthPrefixed op b = r at hprefixed ⊢
  cases hprefixed with
  | noRoom => exact Buffer.grown_error hb _
  | failed => exact Buffer.grown_error hb _
  | tooLong => exact Buffer.grown_error hb _
  | written _ _ _ within => exact ⟨_, by rwa [List.length_append], Or.inl rfl⟩

/-- A stretch and its length are written if the stretch is, and is not too
long. -/
theorem lengthPrefixed_eq_ok_iff (hop : op.Adds) {after : Buffer} :
    lengthPrefixed op b = .ok () after ↔ b.admits (b.size + 2) ∧ ∃ bs : Octets,
      op (b.extend [0, 0]) = .ok () ((b.extend [0, 0]).extend bs) ∧ bs.length ≤ maxFieldLength ∧
        after = b.extend (Octets.ofUInt16 (UInt16.ofNat bs.length) ++ bs) := by
  constructor
  · intro h
    have hprefixed := prefixed_lengthPrefixed hop b
    rw [h] at hprefixed
    cases hprefixed with
    | written room ends fits => exact ⟨room, _, ends, fits, rfl⟩
  · rintro ⟨hroom, bs, hends, hfits, rfl⟩
    rw [lengthPrefixed_of_ok hroom hends, if_pos hfits]

/-- If they are not written, nothing is, and one of three things is at fault. -/
theorem lengthPrefixed_eq_error_iff (hop : op.Adds) {e : EncodeError} {after : Buffer} :
    lengthPrefixed op b = .error e after ↔ after = b ∧
      (¬ b.admits (b.size + 2) ∧ e = .shortBuffer ∨
        b.admits (b.size + 2) ∧ (∃ mid, op (b.extend [0, 0]) = .error e mid) ∨
        b.admits (b.size + 2) ∧ e = .longData ∧ ∃ bs : Octets,
          op (b.extend [0, 0]) = .ok () ((b.extend [0, 0]).extend bs) ∧
            maxFieldLength < bs.length) := by
  constructor
  · intro h
    have hprefixed := prefixed_lengthPrefixed hop b
    rw [h] at hprefixed
    cases hprefixed with
    | noRoom lack => exact ⟨rfl, Or.inl ⟨lack, rfl⟩⟩
    | failed room ends => exact ⟨rfl, Or.inr (Or.inl ⟨room, _, ends⟩)⟩
    | tooLong room ends long => exact ⟨rfl, Or.inr (Or.inr ⟨room, rfl, _, ends, long⟩)⟩
  · rintro ⟨rfl, ⟨hroom, rfl⟩ | ⟨hroom, mid, hmid⟩ | ⟨hroom, rfl, bs, hends, hlong⟩⟩
    · exact lengthPrefixed_of_not_admits hroom
    · -- The failed stretch has only added, so going back finds the buffer as it was.
      obtain ⟨bs, -, hends | ⟨e', hends⟩⟩ := hop (after.extend [0, 0]) (by rwa [Buffer.size_extend])
      · exact nomatch hmid.symm.trans hends
      · cases hmid.symm.trans hends
        exact lengthPrefixed_of_error hroom hends
    · rw [lengthPrefixed_of_ok hroom hends, if_neg (Nat.not_le_of_lt hlong)]

end LengthPrefixed

end Writer

/-! ## Layouts -/

namespace Layout

mutual

/-- **Every item only adds**, at any depth. -/
theorem Item.adds_write : ∀ item : Layout.Item, (Item.write item).Adds
  | .octets bs => (Writer.realises_append bs).adds
  | .u8 n => (Writer.realises_append [n]).adds
  | .u16 n => (Writer.realises_append (Octets.ofUInt16 n)).adds
  | .u32 n => (Writer.realises_append (Octets.ofUInt32 n)).adds
  | .address x => (Writer.realises_append x.octets).adds
  | .padding start => Writer.adds_padToWord start
  | .names v names => (NameList.realises_write v names).adds
  | .header h => (Header.realises_write h).adds
  | .snapshot v s => (Snapshot.realises_write v s).adds
  | .record v r => (Record.realises_write v r).adds
  | .message m => (Message.realises_write m).adds
  | .failure e => (Writer.realises_throw e).adds
  | .lengthPrefixed items => Writer.adds_lengthPrefixed (adds_writeAll items)

/-- So does every layout. -/
theorem adds_writeAll : ∀ items : List Layout.Item, (writeAll items).Adds
  | [] => Writer.realises_pure.adds
  | item :: rest => Writer.adds_seq (Item.adds_write item) (adds_writeAll rest)

end

/-- **A layout with its length in front is written as a whole or not at all.**
It is written exactly if there is room for the length, the layout is written
behind it, and the octets of the layout are few enough to have a length; then
the buffer has grown by this length and these octets. It fails exactly if one of
the three is not so, for want of room, for the reason that the layout fails, or
because there are too many octets, and then the buffer is what it was. -/
theorem write_lengthPrefixed (items : Layout) (b : Buffer) :
    let behind := b.extend [0, 0]
    let room := b.admits (b.size + 2)
    let op := writeAll items behind
    let prefixed := (Item.lengthPrefixed items).write b
    (∀ after, prefixed = .ok () after ↔
      room ∧ ∃ bs : Octets, op = .ok () (behind.extend bs) ∧ bs.length ≤ 65535 ∧
        after = b.extend (Octets.ofUInt16 (UInt16.ofNat bs.length) ++ bs)) ∧
    ∀ e after, prefixed = .error e after ↔
      after = b ∧ (¬ room ∧ e = .shortBuffer ∨ room ∧ (∃ mid, op = .error e mid) ∨
        room ∧ e = .longData ∧ ∃ bs : Octets, op = .ok () (behind.extend bs) ∧ 65535 < bs.length) := by
  intro behind room op prefixed
  have hadds : (writeAll items).Adds := adds_writeAll items
  exact ⟨fun after => Writer.lengthPrefixed_eq_ok_iff hadds,
    fun e after => Writer.lengthPrefixed_eq_error_iff hadds⟩

/-- A stretch within a stretch, with padding that is counted from the first octet
of the buffer. One octet of room less, and neither is written. -/
example :
    let item : Item := .lengthPrefixed [.u8 1, .lengthPrefixed [.names .v1 ["a"], .padding 0], .u8 2]
    item.write ⟨#[9], some 13⟩ =
        .ok () (Buffer.extend ⟨#[9], some 13⟩ [0, 10, 1, 0, 6, 1, 97, 0, 0, 0, 0, 2]) ∧
      item.write ⟨#[9], some 12⟩ = .error .shortBuffer ⟨#[9], some 12⟩ := by
  exact ⟨by cbv, by cbv⟩

end Layout

end FlowTelemetry

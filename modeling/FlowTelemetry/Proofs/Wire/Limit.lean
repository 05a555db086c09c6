import FlowTelemetry.Proofs.Wire.Writing

/-!
# Messages in a buffer with a limit

A message may be written into a buffer that must not grow beyond a limit, and
what is left in it if there is not enough room should not be mistaken for
something else. It is the beginning of the message: the octets are those of
the message as far as they go, there are no more of them than the limit
allows, and what was in the buffer before is still there.

Room can run out within a stretch whose length is not known yet. The stretch
is then taken back together with the placeholder of its length, which leaves
less than there was room for, but still a beginning of the message.

A message that cannot be written at all need not fail in the same way under a
limit, because there may be no room for the part at which it fails.

All of this holds of any writer whose effect is known, and is read off the two
ways in which its effect can end.
-/

namespace FlowTelemetry

namespace Writer

/-- The buffer that a writer leaves, whether it succeeds or fails. -/
def leaves (w : Writer Unit) (b : Buffer) : Buffer :=
  match w b with
  | .ok () after => after
  | .error _ after => after

namespace Realises

variable {w : Writer Unit} {x : Effect} {b : Buffer}

/-- Where there is room for the whole of an effect that does not fail, the
writer succeeds. -/
theorem eq_ok (h : w.Realises x) (hx : x.failure = none)
    (room : b.admits (b.size + x.added.length)) : w b = .ok () (b.extend x.added) := by
  cases h b (Buffer.admits_of_le room (Nat.le_add_right _ _)) with
  | whole _ ends => rw [ends, Effect.on, hx]
  | short _ _ _ _ _ lack => exact absurd room (lack hx)

/-- **Where there is no room** for the whole of it, the writer says so, and not
all of it has been added. -/
theorem eq_short (h : w.Realises x) (hb : b.admits b.size)
    (lack : ¬ b.admits (b.size + x.added.length)) :
    ∃ kept, kept <+: x.added ∧ kept ≠ x.added ∧
      w b = .error .shortBuffer (b.extend kept) := by
  cases h b hb with
  | whole room => exact absurd room lack
  | short kept more _ hadded room _ ends =>
    refine ⟨kept, ⟨more, hadded.symm⟩, fun hall => lack ?_, ends⟩
    rw [← hall]
    exact room

/-- An effect that fails does so in its own way, or for want of room. -/
theorem eq_error (h : w.Realises x) {e : EncodeError} (hx : x.failure = some e)
    (hb : b.admits b.size) :
    ∃ e' after, w b = .error e' after ∧ (e' = e ∨ e' = .shortBuffer) := by
  cases h b hb with
  | whole _ ends => exact ⟨e, _, by rw [ends, Effect.on, hx], Or.inl rfl⟩
  | short kept _ _ _ _ _ ends => exact ⟨.shortBuffer, _, ends, Or.inr rfl⟩

/-- **What is left is a beginning** of what the effect adds, for which there is
room. -/
theorem leaves_eq (h : w.Realises x) (hb : b.admits b.size) :
    ∃ kept, kept <+: x.added ∧ w.leaves b = b.extend kept ∧ b.admits (b.size + kept.length) := by
  unfold leaves
  cases h b hb with
  | whole room ends =>
    refine ⟨x.added, List.prefix_rfl, ?_, room⟩
    rw [ends, Effect.on]
    cases x.failure <;> rfl
  | short kept more _ hadded room _ ends =>
    refine ⟨kept, ⟨more, hadded.symm⟩, ?_, room⟩
    rw [ends]

end Realises

/-- Without a limit all that the effect adds is left. -/
theorem Performs.leaves_eq {w : Writer Unit} {x : Effect} (h : w.Performs x) {b : Buffer}
    (hb : b.limit = none) : w.leaves b = b.extend x.added := by
  unfold leaves
  rw [h b hb, Effect.on]
  cases x.failure <;> rfl

end Writer

/-- **A message under a limit is the same message, as far as it fits.** Take a
buffer without a limit, and one with the same octets and a limit that it has not
outgrown. If the message can be written into the first, then it is written into
the second with the same octets, provided that they fit; if they do not, writing
it ends for want of room and leaves some of these octets, but not all of them.
If the message cannot be written into the first, then neither can it be into the
second, for the same reason or for want of room. In any case the second is left
with a beginning of what the first is left with, within its limit, behind the
octets that were there. -/
theorem Message.write_limited (m : Message) {octets : Array UInt8} {limit : Nat}
    (h : octets.size ≤ limit) :
    let free : Buffer := ⟨octets, none⟩
    let bounded : Buffer := ⟨octets, some limit⟩
    (∀ after, m.write free = .ok () after → ∃ bs, after = free.extend bs ∧
        (octets.size + bs.length ≤ limit → m.write bounded = .ok () (bounded.extend bs)) ∧
        (limit < octets.size + bs.length → ∃ kept, kept <+: bs ∧ kept ≠ bs ∧
          m.write bounded = .error .shortBuffer (bounded.extend kept))) ∧
      (∀ e after, m.write free = .error e after →
        ∃ e' after', m.write bounded = .error e' after' ∧ (e' = e ∨ e' = .shortBuffer)) ∧
      ∃ bs kept, m.write.leaves free = free.extend bs ∧ kept <+: bs ∧
        m.write.leaves bounded = bounded.extend kept ∧ octets.size + kept.length ≤ limit := by
  intro free bounded
  have hw := realises_write m
  have hfree : m.write free = m.effect.on free := hw.performs free rfl
  have hbounded : bounded.admits bounded.size := decide_eq_true h
  refine ⟨?_, ?_, ?_⟩
  · intro after hafter
    rw [hfree, Effect.on_eq_ok_iff] at hafter
    obtain ⟨hfailure, rfl⟩ := hafter
    refine ⟨m.effect.added, rfl, fun hfits => ?_, fun hlack => ?_⟩
    · exact hw.eq_ok hfailure (decide_eq_true hfits)
    · exact hw.eq_short hbounded fun hroom => Nat.not_le_of_lt hlack (of_decide_eq_true hroom)
  · intro e after hafter
    rw [hfree, Effect.on_eq_error_iff] at hafter
    exact hw.eq_error hafter.1 hbounded
  · obtain ⟨kept, hkept, hleaves, hroom⟩ := hw.leaves_eq hbounded
    exact ⟨m.effect.added, kept, hw.performs.leaves_eq rfl, hkept, hleaves,
      of_decide_eq_true hroom⟩

/-- A message with one record. -/
def Message.small : Message :=
  { header := { version := .v1, setCount := 1, flags := .none, sequence := 7 }
    body := .records [⟨⟨10, 0, 0, 1⟩, ["a.b"], [⟨192, 0, 2, 1⟩]⟩] }

/-- Its octets. -/
def Message.smallOctets : Octets :=
  [1, 1, 0, 0, 0, 0, 0, 7, 10, 0, 0, 1, 1, 1, 0, 8, 1, 97, 1, 98, 0, 0, 0, 0, 192, 0, 2, 1]

/-- Behind one octet and within 23, there is room for its name, but not for the
padding of the name. The name is taken back. -/
theorem Message.write_limited_small :
    (#[9] : Array UInt8).size ≤ 23 ∧
      (∃ kept, kept <+: smallOctets ∧ kept ≠ smallOctets ∧
        small.write ⟨#[9], some 23⟩ = .error .shortBuffer (Buffer.extend ⟨#[9], some 23⟩ kept)) ∧
      (small.write.leaves ⟨#[9], some 23⟩).contents
        = [9, 1, 1, 0, 0, 0, 0, 0, 7, 10, 0, 0, 1, 1, 1] := by
  have h : (#[9] : Array UInt8).size ≤ 23 := by decide
  have hfree : small.write ⟨#[9], none⟩ = .ok () (Buffer.extend ⟨#[9], none⟩ smallOctets) := by cbv
  obtain ⟨bs, hbs, -, hshort⟩ := (write_limited small h).1 _ hfree
  obtain rfl := Buffer.extend_injective hbs
  exact ⟨h, hshort (by decide), by cbv⟩

end FlowTelemetry

import FlowTelemetry.Proofs.Wire.Writable
import Mathlib.Data.List.Forall2

/-!
# What a failed message leaves behind

A message that cannot be written is not taken back. Its header is in the
buffer by then, and so are the records before the one that is at fault. Who
goes on with the buffer has to know how far it can be trusted.

Of the record at fault there may be something, too. Too many names or
addresses are noticed before anything is written. Any other fault lies in the
names, and names are written behind a placeholder for their length, which is
taken back together with them. What was written before the placeholder is not:
the client and the two counts stay, six octets that no length follows
(`Record.added_of_failure`).

Nothing is left of later records, because nothing is written after a failure.
In terms of effects this is to say where a list of effects fails: at the first
that does, behind the octets of those that did not (`Effect.all_eq_of_failure`).
-/

namespace FlowTelemetry

namespace Effect

/-- **A list of effects stops at the first that fails.** What it has added is
what the effects before that have added, and what the failed one leaves. -/
theorem all_eq_of_failure (before : List Octets) {x : Effect} {e : EncodeError}
    (h : x.failure = some e) (later : List Effect) :
    all (before.map add ++ x :: later) = ⟨before.flatten ++ x.added, some e⟩ := by
  induction before with
  | nil =>
    obtain ⟨added, failure⟩ := x
    cases h
    rfl
  | cons bs before ih =>
    rw [List.map_cons, List.cons_append, all, ih, add_seq, List.flatten_cons, List.append_assoc]

/-- If a list of effects fails, then one of them is the first that does. -/
theorem exists_of_failure_all {xs : List Effect} {e : EncodeError}
    (h : (all xs).failure = some e) :
    ∃ (before : List Octets) (x : Effect) (later : List Effect),
      xs = before.map add ++ x :: later ∧ x.failure = some e := by
  induction xs with
  | nil => exact nomatch h
  | cons x xs ih =>
    rw [all] at h
    cases hx : x.failure with
    | none =>
      rw [eq_add_of_failure hx, add_seq] at h
      obtain ⟨before, y, later, rfl, hy⟩ := ih h
      refine ⟨x.added :: before, y, later, ?_, hy⟩
      rw [List.map_cons, List.cons_append, ← eq_add_of_failure hx]
    | some e' =>
      refine ⟨[], x, xs, rfl, ?_⟩
      rw [seq, hx] at h
      exact h

/-- A failed stretch with its length leaves nothing. -/
theorem lengthPrefixed_eq_fail {x : Effect} {e : EncodeError}
    (h : x.lengthPrefixed.failure = some e) : x.lengthPrefixed = fail e := by
  unfold lengthPrefixed at h ⊢
  split at h
  · cases h
    rfl
  · split at h
    · exact nomatch h
    · next hlong =>
      cases h
      exact if_neg hlong

end Effect

/-- What cannot be written into an empty buffer is what has an effect that
fails. -/
theorem Writer.toOctets_eq_error_iff {w : Writer Unit} {x : Effect} (hw : w.Performs x)
    {e : EncodeError} : toOctets w = .error e ↔ x.failure = some e := by
  unfold toOctets
  rw [hw (Buffer.empty none) rfl, Effect.on]
  cases x.failure with
  | none => simp only [reduceCtorEq]
  | some e' => rw [Except.error.injEq, Option.some.injEq]

namespace Record

variable {v : Version} {r : Record} {e : EncodeError}

/-- The octets of a record by itself. -/
def encode (v : Version) (r : Record) : Except EncodeError Octets := Writer.toOctets (r.write v)

theorem encode_eq_ok_iff {bs : Octets} : r.encode v = .ok bs ↔ effect v r = .add bs :=
  Writer.toOctets_eq_ok_iff (realises_write v r).performs

theorem encode_eq_error_iff : r.encode v = .error e ↔ (effect v r).failure = some e :=
  Writer.toOctets_eq_error_iff (realises_write v r).performs

/-- Records can be written one by one if none of their effects fails. -/
theorem forall₂_encode_iff {rs : List Record} {encoded : List Octets} :
    List.Forall₂ (fun r bs => encode v r = .ok bs) rs encoded ↔
      rs.map (effect v) = encoded.map .add := by
  rw [← List.forall₂_eq_eq_eq, List.forall₂_map_left_iff, List.forall₂_map_right_iff]
  simp only [encode_eq_ok_iff]

/-- **What is left of a record that cannot be written** is what lies before the
length of its names, or nothing if it has too many names or addresses. -/
theorem added_of_failure (h : (effect v r).failure = some e) :
    (effect v r).added =
      if 255 < r.names.length ∨ 255 < r.addresses.length then [] else r.front := by
  split
  · next hcounts => rw [effect_of_tooMany v hcounts, Effect.fail]
  · next hcounts =>
    rw [effect_of_counts v hcounts] at h ⊢
    -- Neither the octets in front nor the addresses can fail, so the names do.
    cases hnames : (NameList.effect v r.names).padded.lengthPrefixed.failure with
    | none =>
      rw [Effect.eq_add_of_failure hnames] at h
      exact nomatch h
    | some e' =>
      rw [Effect.lengthPrefixed_eq_fail hnames, Effect.add_seq]
      exact List.append_nil r.front

end Record

/-- **What a message leaves that cannot be written.** Writing a message fails
exactly if one of its records cannot be written, for the reason that the first
of these has. It has then added the header, the records before that one, and of
the one at fault the client and the two counts, but not even these if there are
too many names or addresses to be counted. -/
theorem Message.write_eq_error_iff (m : Message) (octets : Array UInt8) (e : EncodeError)
    (after : Buffer) :
    m.write ⟨octets, none⟩ = .error e after ↔
      ∃ (before : List Record) (r : Record) (later : List Record) (encoded : List Octets),
        m.body = .records (before ++ r :: later) ∧
        List.Forall₂ (fun r bs => r.encode m.header.version = .ok bs) before encoded ∧
        r.encode m.header.version = .error e ∧
        after = Buffer.extend ⟨octets, none⟩ (m.header.octets ++ encoded.flatten ++
          if 255 < r.names.length ∨ 255 < r.addresses.length then []
          else r.client.octets ++ [UInt8.ofNat r.names.length, UInt8.ofNat r.addresses.length]) := by
  obtain ⟨h, body⟩ := m
  rw [(realises_write ⟨h, body⟩).performs _ rfl, Effect.on_eq_error_iff]
  show (bodyEffect h.version body).failure = some e ∧
    Buffer.extend _ (h.octets ++ (bodyEffect h.version body).added) = after ↔ _
  constructor
  · rintro ⟨hfailure, rfl⟩
    cases body with
    | stats s => exact nomatch hfailure
    | records rs =>
      obtain ⟨encoded, x, rest, hrs, hx⟩ := Effect.exists_of_failure_all hfailure
      obtain ⟨before, rs', rfl, hbefore, hrs'⟩ := List.map_eq_append_iff.mp hrs
      obtain ⟨r, later, rfl, rfl, rfl⟩ := List.map_eq_cons_iff.mp hrs'
      refine ⟨before, r, later, encoded, rfl, Record.forall₂_encode_iff.mpr hbefore,
        Record.encode_eq_error_iff.mpr hx, ?_⟩
      show Buffer.extend _ (_ ++ (Effect.all _).added) = _
      rw [hrs, Effect.all_eq_of_failure encoded hx, Record.added_of_failure hx,
        ← List.append_assoc]
      rfl
  · rintro ⟨before, r, later, encoded, rfl, hbefore, hr, rfl⟩
    have hx := Record.encode_eq_error_iff.mp hr
    have hall : bodyEffect h.version (.records (before ++ r :: later)) =
        ⟨encoded.flatten ++ (Record.effect h.version r).added, some e⟩ := by
      show Effect.all _ = _
      rw [List.map_append, List.map_cons, Record.forall₂_encode_iff.mp hbefore,
        Effect.all_eq_of_failure encoded hx]
    rw [hall, Record.added_of_failure hx, ← List.append_assoc]
    exact ⟨rfl, rfl⟩

/-- The second record has a label that is empty, behind one that is not. -/
example : Message.write
    { header := { version := .v2, setCount := 3, flags := .none, sequence := 7 }
      body := .records [⟨⟨10, 0, 0, 1⟩, ["a"], []⟩, ⟨⟨10, 0, 0, 2⟩, ["b", "a..c"], [⟨192, 0, 2, 1⟩]⟩,
        ⟨⟨10, 0, 0, 3⟩, [], []⟩] } ⟨#[9], none⟩ =
    .error .invalidName (Buffer.extend ⟨#[9], none⟩
      [2, 3, 0, 0, 0, 0, 0, 7, 10, 0, 0, 1, 1, 0, 0, 4, 1, 97, 0, 0, 10, 0, 0, 2, 2, 1]) := by cbv

end FlowTelemetry

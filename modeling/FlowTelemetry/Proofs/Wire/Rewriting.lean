import FlowTelemetry.Proofs.Text.Characters
import FlowTelemetry.Proofs.Wire.Leftover
import FlowTelemetry.Proofs.Wire.Spelling

/-!
# Which messages can be written again

Reading is more liberal than writing, so not every message that was read can be
written. There are two obstacles only. A name may have no form in the version, or
the names of a record may have become too long: an octet that is not UTF-8 is read
as a replacement character, and this is written with three octets.

Terminated names never meet the first obstacle, because a name that was cut out
between NULs has no NUL in its text. Labelled names do not meet it if their labels
are plain, and then they do not grow, either. Too many names or addresses there
cannot be, because their numbers were read from one octet each. So the length of
the names is all that is left to decide (`Record.Countable.effect_decided`), and what one
record hinges on, all records do (`Message.encode_eq_error_of_countable`).
-/

namespace FlowTelemetry

open WireForm

/-! ## Effects that hinge on a length -/

namespace Effect.Decided

variable {x : Effect} {possible : Prop} {size : Nat} {e : EncodeError}

/-- **A stretch behind its length** hinges on whether the length can be written. -/
theorem lengthPrefixed (h : x.failure = none) :
    x.lengthPrefixed.Decided (x.added.length ≤ Writer.maxFieldLength) (2 + x.added.length)
      .longData where
  succeeds hfits := by
    rw [lengthPrefixed_eq_add_iff.mpr ⟨_, eq_add_of_failure h, hfits, rfl⟩]
    exact ⟨rfl, List.length_append⟩
  fails hlong := by
    rw [lengthPrefixed_of_lt h (Nat.lt_of_not_le hlong)]
    rfl

/-- There is only one error to fail with. -/
theorem failure_eq_some_iff (h : x.Decided possible size e) {e' : EncodeError} :
    x.failure = some e' ↔ e' = e ∧ ¬ possible := by
  by_cases hp : possible
  · rw [(h.succeeds hp).1]
    exact iff_of_false nofun fun hand => hand.2 hp
  · rw [h.fails hp, Option.some.injEq, eq_comm]
    exact (and_iff_left hp).symm

/-- What is added without failing was possible, and is as long as was said. -/
theorem of_eq_add (h : x.Decided possible size e) {bs : Octets} (hx : x = .add bs) :
    possible ∧ size = bs.length := by
  have hp : possible := by
    by_contra hp
    exact nomatch (h.fails hp).symm.trans (congrArg failure hx)
  exact ⟨hp, by rw [← (h.succeeds hp).2, hx, added_add]⟩

end Effect.Decided

/-! ## Records -/

namespace Record

/-- **Nothing but the length of its names can keep the record from being
written.** -/
structure Countable (v : Version) (r : Record) : Prop where
  names_le : r.names.length ≤ 255
  addresses_le : r.addresses.length ≤ 255
  writable : ∀ name ∈ r.names, Name.Writable v name

/-- How many octets the names of a record take up in a version. -/
def namesSize (v : Version) (r : Record) : Nat := (r.names.map (Name.size v)).sum

/-- How many octets the record takes up in a version. -/
def size (v : Version) (r : Record) : Nat :=
  6 + (2 + 4 * ((r.namesSize v + 3) / 4) + 4 * r.addresses.length)

theorem Countable.counts {v : Version} {r : Record} (h : r.Countable v) :
    ¬ (255 < r.names.length ∨ 255 < r.addresses.length) :=
  not_or.mpr ⟨Nat.not_lt.mpr h.names_le, Nat.not_lt.mpr h.addresses_le⟩

/-- **The length of the names decides**: it has to be at most 65532. -/
theorem Countable.effect_decided {v : Version} {r : Record} (h : r.Countable v) :
    (effect v r).Decided (r.namesSize v ≤ 65532) (r.size v) .longData := by
  obtain ⟨hfailure, hlength⟩ := (namesEffect_decided v r.names).succeeds h.writable
  have hnames := (Effect.Decided.lengthPrefixed hfailure).seq_add
    (r.addresses.flatMap Address.octets)
  rw [effect_of_counts v h.counts]
  refine ((Effect.Decided.of_add r.front).seq hnames).congr ?_ fun _ => ?_
  · rw [hlength, true_and, Writer.maxFieldLength, namesSize]
    omega
  · rw [hlength, length_addresses]
    rfl

end Record

/-! ## Messages -/

namespace Message

variable {m : Message} {rs : List Record}

theorem encode_eq_error_iff {e : EncodeError} : m.encode = .error e ↔ m.effect.failure = some e :=
  Writer.toOctets_eq_error_iff (realises_write m).performs

/-- **A message hinges on what its records do**, and fails for no other reason. -/
theorem encode_eq_error_of_countable (hbody : m.body = .records rs)
    (h : ∀ r ∈ rs, r.Countable m.header.version) :
    m.encode ≠ .error .invalidName ∧
      (m.encode = .error .longData ↔ ∃ r ∈ rs, 65532 < r.namesSize m.header.version) := by
  have hrecords := Effect.Decided.all_of_mem fun r hr => (h r hr).effect_decided
  have heffect : m.effect = (Effect.add m.header.octets).seq
      (Effect.all (rs.map (Record.effect m.header.version))) := by
    rw [effect, hbody]
    rfl
  have hdecided := (Effect.Decided.of_add m.header.octets).seq hrecords
  rw [ne_eq, encode_eq_error_iff, encode_eq_error_iff, heffect, hdecided.failure_eq_some_iff,
    hdecided.failure_eq_some_iff]
  refine ⟨fun hinvalid => EncodeError.noConfusion hinvalid.1, ?_⟩
  simp only [true_and, not_forall, Nat.not_le, exists_prop]

/-- **A message is written record by record** if none of its records fails. -/
theorem encode_eq_ok_of_effect {α : Type} {as : List α} {record : α → Record}
    {written : α → Octets} (hbody : m.body = .records (as.map record))
    (h : ∀ a ∈ as, Record.effect m.header.version (record a) = .add (written a)) :
    m.encode = .ok (m.header.octets ++ as.flatMap written) := by
  rw [encode_eq_ok_iff, effect, hbody, bodyEffect, Effect.all_map_map_of_mem h]
  rfl

end Message

/-! ## Terminated names -/

namespace NameList

/-- **A terminated name that was read can be written**: there is no NUL between
two of them. -/
theorem Terminated.writable {names : List String} {bs : Octets} (h : Terminated names bs) :
    ∀ name ∈ names, Name.Writable .v0 name := by
  obtain ⟨-, hnames⟩ := h
  intro name hname
  rw [hnames] at hname
  obtain ⟨piece, hpiece, rfl⟩ := List.mem_map.mp hname
  have hzero : 0 ∉ piece := by
    rw [← pieces_eq_splitOn] at hpiece
    exact separator_notMem_of_mem_pieces (List.mem_of_mem_take hpiece)
  show Char.ofNat 0 ∉ (Utf8.text piece).toList
  rw [Utf8.text, String.toList_ofList]
  exact Utf8.nul_notMem_decode hzero

end NameList

/-- **A record with terminated names that was read** hinges on their length. -/
theorem Record.Form.countable {r : Record} {bs : Octets} (h : Form .v0 r bs) :
    r.Countable .v0 := by
  obtain ⟨nameCount, addressCount, _, _, -, hnames, haddresses, -, hform⟩ := h
  exact ⟨hnames ▸ Nat.le_of_lt_succ nameCount.toNat_lt,
    haddresses ▸ Nat.le_of_lt_succ addressCount.toNat_lt, NameList.Terminated.writable hform⟩

/-! ## Labelled names -/

theorem Name.effect_of_ne {v : Version} (hv : v ≠ .v0) (name : String) :
    effect v name = labelledEffect name := by
  cases v with
  | v0 => exact absurd rfl hv
  | v1 => rfl
  | v2 => rfl

namespace Record.Spelling

variable {v : Version} {s : Spelling}

/-- **All labels are plain.** -/
def Plain (s : Spelling) : Prop := ∀ labels ∈ s.names, ∀ label ∈ labels, Name.Plain label

/-- The octets of the record as it is written, with zeros behind the names. -/
def rewritten (s : Spelling) : Octets := s.octetsWith (Octets.wordPadding s.encodedNames.length)

/-- A name is written as it was spelled. -/
theorem Plain.effect_name (h : s.Plain) (hv : v ≠ .v0) {labels : List Octets}
    (hlabels : labels ∈ s.names) :
    Name.effect v (Name.ofLabels labels) = .add (Name.spelled labels) := by
  rw [Name.effect_of_ne hv]
  exact Name.labelledEffect_ofLabels (h labels hlabels) (s.readable labels hlabels)

/-- **So are all names of a record.** -/
theorem Plain.effect_names (h : s.Plain) (hv : v ≠ .v0) :
    NameList.effect v s.record.names = .add s.encodedNames :=
  Effect.all_map_map_of_mem fun _ hlabels => h.effect_name hv hlabels

/-- They take up as many octets as they did. -/
theorem Plain.namesSize_record (h : s.Plain) (hv : v ≠ .v0) :
    s.record.namesSize v = s.encodedNames.length :=
  ((Effect.Decided.all (Name.effect_decided v) s.record.names).of_eq_add (h.effect_names hv)).2

/-- The record hinges on their length. -/
theorem Plain.countable (h : s.Plain) (hv : v ≠ .v0) : s.record.Countable v where
  names_le := Nat.le_trans (Nat.le_of_eq (List.length_map _)) s.names_le
  addresses_le := s.addresses_le
  writable :=
    ((Effect.Decided.all (Name.effect_decided v) s.record.names).of_eq_add (h.effect_names hv)).1

/-- **The record is written as it was spelled**, but for the padding. -/
theorem Plain.effect_record (h : s.Plain) (hv : v ≠ .v0) (hfits : s.encodedNames.length ≤ 65532) :
    Record.effect v s.record = .add s.rewritten := by
  have hpadded : (NameList.effect v s.record.names).padded =
      .add (s.encodedNames ++ Octets.wordPadding s.encodedNames.length) :=
    Effect.padded_eq_add_iff.mpr ⟨s.encodedNames, h.effect_names hv, rfl⟩
  have hlength : (s.encodedNames ++ Octets.wordPadding s.encodedNames.length).length ≤
      Writer.maxFieldLength := by
    rw [List.length_append, Octets.wordPadding, List.length_replicate, Writer.maxFieldLength]
    omega
  have hfront : s.record.front =
      s.client.octets ++ [UInt8.ofNat s.names.length, UInt8.ofNat s.addresses.length] := by
    rw [front, show s.record.names.length = s.names.length from List.length_map _]
    rfl
  rw [effect_eq_add v (h.countable hv).counts hpadded hlength, hfront]
  simp only [rewritten, octetsWith, List.append_assoc]
  rfl

end Record.Spelling

/-! ## Writing again what was read -/

theorem Snapshot.length_octets (v : Version) (s : Snapshot) :
    (s.octets v).length = if v = .v2 then 20 else 16 := by
  cases v <;> rfl

namespace Message

/-- Counters can always be written. -/
theorem encode_stats {m : Message} {s : Snapshot} (hbody : m.body = .stats s) :
    m.encode = .ok (m.header.octets ++ s.octets m.header.version) := by
  rw [encode_eq_ok_iff, effect, hbody]
  rfl

/-- **Records with terminated names that were read** hinge on the length of their
names. -/
theorem countable_of_decode {p : Octets} {m : Message} (h : decode .full p = .ok m)
    (hv : m.header.version = .v0) {rs : List Record} (hbody : m.body = .records rs) :
    ∀ r ∈ rs, r.Countable m.header.version := by
  obtain ⟨_, _, -, hrecords⟩ := exists_sequence_of_decode h hbody
  rw [hv] at hrecords ⊢
  intro r hr
  obtain ⟨_, hform⟩ := hrecords.exists_of_mem hr
  exact hform.countable

/-- **Records with plain labels** hinge on the length of their names, too. -/
theorem encode_eq_error_of_plain {m : Message} (hv : m.header.version ≠ .v0)
    {ss : List Record.Spelling} (hbody : m.body = .records (ss.map Record.Spelling.record))
    (hplain : ∀ s ∈ ss, s.Plain) :
    m.encode ≠ .error .invalidName ∧
      (m.encode = .error .longData ↔ ∃ s ∈ ss, 65532 < s.encodedNames.length) := by
  obtain ⟨hname, hlong⟩ := encode_eq_error_of_countable hbody
    (List.forall_mem_map.mpr fun s hs => (hplain s hs).countable hv)
  refine ⟨hname, hlong.trans ?_⟩
  simp only [List.mem_map, exists_exists_and_eq_and]
  refine exists_congr fun s => and_congr_right fun hs => ?_
  rw [(hplain s hs).namesSize_record hv]

/-- **When a message that was read can be written again.** Counters always can, with
24 octets, or 28 with a sampling rate.

Records with terminated names are never refused for a name. They are refused for
their length exactly if in one of them the names, each with the NUL that ends it,
take up more than 65532 octets.

Records with labelled names were spelled in one way. If all their labels are
plain, then they are not refused for a name, either. The names of each record are
written with exactly the octets that they were read from, and a message is refused
for their length exactly if in one record these are more than 65532. If not, then
nothing changes when it is written again but the padding and what follows. -/
theorem encode_decoded {p : Octets} {m : Message} (h : decode .full p = .ok m) :
    match m.body with
    | .stats _ => ∃ bs, m.encode = .ok bs ∧ bs.length = if m.header.version = .v2 then 28 else 24
    | .records rs =>
      if m.header.version = .v0 then
        m.encode ≠ .error .invalidName ∧
          (m.encode = .error .longData ↔ ∃ r ∈ rs,
            65532 < (r.names.map fun name => (Utf8.octets name).length + 1).sum)
      else
        (∃! ss, m.SpelledIn p ss) ∧ ∀ ss, m.SpelledIn p ss → (∀ s ∈ ss, s.Plain) →
          m.encode ≠ .error .invalidName ∧
          (∀ s ∈ ss, Writer.toOctets (NameList.write m.header.version s.record.names) =
            .ok s.encodedNames) ∧
          (m.encode = .error .longData ↔ ∃ s ∈ ss, 65532 < s.encodedNames.length) ∧
          ((∀ s ∈ ss, s.encodedNames.length ≤ 65532) →
            m.encode = .ok (m.header.octets ++ ss.flatMap Record.Spelling.rewritten)) := by
  split
  · next s hbody =>
    refine ⟨_, encode_stats hbody, ?_⟩
    rw [List.length_append, Snapshot.length_octets]
    split <;> rfl
  · next rs hbody =>
    split
    · next hv =>
      have herror := encode_eq_error_of_countable hbody (countable_of_decode h hv hbody)
      rw [hv] at herror
      exact herror
    · next hv =>
      refine ⟨existsUnique_spelledIn h hv hbody, fun ss hss hplain => ?_⟩
      obtain ⟨hname, hlong⟩ := encode_eq_error_of_plain hv hss.1 hplain
      refine ⟨hname, fun s hs => ?_, hlong, fun hfits => ?_⟩
      · exact (Writer.toOctets_eq_ok_iff (NameList.realises_write _ _).performs).mpr
          ((hplain s hs).effect_names hv)
      · exact encode_eq_ok_of_effect hss.1 fun s hs =>
          (hplain s hs).effect_record hv (hfits s hs)

/-- A record with a name of two labels and the root name, and with something other
than zeros behind them. -/
def spelling : Record.Spelling where
  client := ⟨10, 0, 0, 1⟩
  names := [[[97], [195, 169]], []]
  padding := [9, 9]
  addresses := [⟨192, 0, 2, 1⟩]
  readable := by decide
  names_le := by decide
  addresses_le := by decide
  stretch_le := by decide

/-- The message with this record. -/
def spelledMessage : Message :=
  { header := { version := .v1, setCount := 1, flags := .none, sequence := 7 }
    body := .records [⟨⟨10, 0, 0, 1⟩, ["a.é", ""], [⟨192, 0, 2, 1⟩]⟩] }

/-- The octets of its names, with which it is written again. -/
theorem encode_decoded_spelled :
    let p : Octets := [1, 1, 0, 0, 0, 0, 0, 7, 10, 0, 0, 1, 2, 1, 0, 9, 1, 97, 2, 195, 169, 0, 0,
      9, 9, 192, 0, 2, 1, 1, 2]
    decode .full p = .ok spelledMessage ∧ spelledMessage.SpelledIn p [spelling] ∧ spelling.Plain ∧
      spelledMessage.encode = .ok [1, 1, 0, 0, 0, 0, 0, 7, 10, 0, 0, 1, 2, 1, 0, 8, 1, 97, 2, 195,
        169, 0, 0, 0, 192, 0, 2, 1] := by
  intro p
  have hdecode : decode .full p = .ok spelledMessage := by with_unfolding_all rfl
  have hspelled : spelledMessage.SpelledIn p [spelling] :=
    ⟨by with_unfolding_all rfl, [1, 2], by with_unfolding_all rfl⟩
  have hplain : spelling.Plain := by
    have hlabels : ∀ label ∈ [[97], [195, 169]], Name.Plain label :=
      List.forall_mem_cons.mpr ⟨.of_text ['a'] (by decide) (by decide),
        List.forall_mem_singleton.mpr (.of_text ['é'] (by decide) (by decide))⟩
    exact List.forall_mem_cons.mpr ⟨hlabels, List.forall_mem_singleton.mpr nofun⟩
  obtain ⟨-, hall⟩ := encode_decoded hdecode
  obtain ⟨-, -, -, hencode⟩ := hall [spelling] hspelled (List.forall_mem_singleton.mpr hplain)
  exact ⟨hdecode, hspelled, hplain, hencode (by decide)⟩

end Message

end FlowTelemetry

import FlowTelemetry.Proofs.Wire.Recoding
import FlowTelemetry.Proofs.Wire.Writable
import Mathlib.Logic.ExistsUnique

/-!
# How records are spelled

The text of a labelled name does not say how it was spelled. A dot in it may have
been a dot in a label, and a replacement character may have been any octet that is
not UTF-8. Nor does a record say what was behind its names. A `Record.Spelling` is
a record before anything of this is lost: the labels of its names as octets, and
the padding as it was. Every record with labelled names that can be read has a
spelling (`Record.exists_spelling`). What is read of a name is its spelling, no more
and no less (`Name.takeLabels_spelled`), and so a payload leaves no choice how the
records of its message are spelled (`Message.existsUnique_spelledIn`).

*Plain* labels are those whose text says all about them: they are UTF-8, have no
dot in them, and are no longer than a label that is written. A name that is
spelled with plain labels is cut into these labels again when it is written, and
so it is written as it was spelled (`Name.labelledEffect_ofLabels`).
-/

namespace FlowTelemetry

open WireForm

/-- If each of several things is written with known octets, then so are all. -/
theorem Effect.all_map_map_of_mem {α β : Type} {effect : α → Effect} {value : β → α}
    {written : β → Octets} {xs : List β} (h : ∀ x ∈ xs, effect (value x) = add (written x)) :
    all ((xs.map value).map effect) = add (xs.flatMap written) := by
  rw [← all_map_add, List.map_map]
  exact congrArg all (List.map_congr_left h)

/-! ## Names -/

namespace Name

/-- The octets of a name with the given labels. -/
def spelled (labels : List Octets) : Octets :=
  labels.flatMap (fun label => UInt8.ofNat label.length :: label) ++ [0]

/-- A label that can be read: its length is not zero, and is that of one octet. -/
def ReadableLabel (label : Octets) : Prop := 1 ≤ label.length ∧ label.length ≤ 255

instance : DecidablePred ReadableLabel := fun _ => instDecidableAnd

theorem Run.readable {labels : List Octets} {run : Octets} (h : Run labels run) :
    ∀ label ∈ labels, ReadableLabel label := by
  induction h with
  | root => exact nofun
  | label hpos hle _ ih => exact List.forall_mem_cons.mpr ⟨⟨hpos, hle⟩, ih⟩

/-- **A run of labels is the spelling of a name.** -/
theorem Run.eq_spelled {labels : List Octets} {run : Octets} (h : Run labels run) :
    spelled labels = run := by
  induction h with
  | root => rfl
  | @label label labels run _ _ _ ih =>
    rw [← ih, spelled, List.flatMap_cons, List.append_assoc]
    rfl

theorem run_spelled {labels : List Octets} (h : ∀ label ∈ labels, ReadableLabel label) :
    Run labels (spelled labels) := by
  induction labels with
  | nil => exact Run.root
  | cons label labels ih =>
    obtain ⟨hlabel, hlabels⟩ := List.forall_mem_cons.mp h
    rw [spelled, List.flatMap_cons, List.append_assoc]
    exact Run.label hlabel.1 hlabel.2 (ih hlabels)

/-- **The spelling of a name is what is read of it**, no more and no less. -/
theorem takeLabels_spelled {labels : List Octets} (h : ∀ label ∈ labels, ReadableLabel label)
    (rest : Octets) : takeLabels (spelled labels ++ rest) = .ok (labels, rest) :=
  takeLabels_append (run_spelled h) rest

/-- Where some names are spelled one after the other, no other names are. -/
theorem append_inj_of_spelled {names names' : List (List Octets)} {rest rest' : Octets}
    (hreadable : ∀ labels ∈ names, ∀ label ∈ labels, ReadableLabel label)
    (hreadable' : ∀ labels ∈ names', ∀ label ∈ labels, ReadableLabel label)
    (hlength : names.length = names'.length)
    (h : names.flatMap spelled ++ rest = names'.flatMap spelled ++ rest') :
    names = names' ∧ rest = rest' := by
  induction names generalizing names' with
  | nil =>
    obtain rfl := List.eq_nil_of_length_eq_zero hlength.symm
    exact ⟨rfl, h⟩
  | cons labels names ih =>
    cases names' with
    | nil => exact absurd hlength (Nat.succ_ne_zero _)
    | cons labels' names' =>
      rw [List.forall_mem_cons] at hreadable hreadable'
      rw [List.flatMap_cons, List.flatMap_cons, List.append_assoc, List.append_assoc] at h
      have hfirst := takeLabels_spelled hreadable.1 (names.flatMap spelled ++ rest)
      rw [h, takeLabels_spelled hreadable'.1, Except.ok.injEq, Prod.mk.injEq] at hfirst
      obtain ⟨rfl, hothers⟩ := hfirst
      obtain ⟨rfl, rfl⟩ := ih hreadable.2 hreadable'.2 (Nat.succ.inj hlength) hothers.symm
      exact ⟨rfl, rfl⟩

/-- **A label whose text says all about it.** -/
structure Plain (label : Octets) : Prop where
  /-- The label is UTF-8. -/
  valid : ∃ cs, Utf8.encode cs = label
  length_le : label.length ≤ maxLabelLength
  undotted : '.' ∉ Utf8.decode label

section Plain

variable {label : Octets}

/-- A text without dots that is not too long gives a plain label. -/
theorem Plain.of_text (cs : List Char) (hlength : (Utf8.encode cs).length ≤ maxLabelLength)
    (hundotted : '.' ∉ cs) : Plain (Utf8.encode cs) :=
  ⟨⟨cs, rfl⟩, hlength, (Utf8.decode_encode cs).symm ▸ hundotted⟩

/-- The text of a plain label is written with the octets of the label. -/
theorem Plain.encode_decode (h : Plain label) : Utf8.encode (Utf8.decode label) = label := by
  obtain ⟨cs, rfl⟩ := h.valid
  rw [Utf8.decode_encode]

theorem Plain.decode_ne_nil (h : Plain label) (hpos : 1 ≤ label.length) :
    Utf8.decode label ≠ [] := by
  intro hnil
  have hlabel := h.encode_decode
  rw [hnil] at hlabel
  rw [← hlabel] at hpos
  exact Nat.not_succ_le_zero 0 hpos

/-- So is the label itself. -/
theorem Plain.labelEffect_decode (h : Plain label) (hpos : 1 ≤ label.length) :
    labelEffect (Utf8.decode label) = .add (UInt8.ofNat label.length :: label) := by
  rw [labelEffect_eq_add_iff, h.encode_decode]
  exact ⟨hpos, h.length_le, rfl⟩

end Plain

section Labels

variable {labels : List Octets} (hplain : ∀ label ∈ labels, Plain label)
  (hreadable : ∀ label ∈ labels, ReadableLabel label)

include hplain hreadable

/-- **The text of plain labels is cut into these labels.** No label has a dot in
it, and since none is empty there is no dot at the end either. -/
theorem labels_ofLabels : Name.labels (ofLabels labels) = labels.map Utf8.decode := by
  cases hlabels : labels with
  | nil => rfl
  | cons first others =>
    rw [← hlabels]
    have hundotted : ∀ cs ∈ labels.map Utf8.decode, '.' ∉ cs :=
      List.forall_mem_map.mpr fun label hmem => (hplain label hmem).undotted
    have hnil : [] ∉ labels.map Utf8.decode := by
      intro hmem
      obtain ⟨label, hlabel, hempty⟩ := List.mem_map.mp hmem
      exact (hplain label hlabel).decode_ne_nil (hreadable label hlabel).1 hempty
    have hcut : (['.'].intercalate (labels.map Utf8.decode)).splitOn '.' =
        labels.map Utf8.decode :=
      List.splitOn_intercalate '.' hundotted (by rw [hlabels]; exact List.cons_ne_nil _ _)
    rw [labels_eq, ofLabels, String.toList_ofList,
      withoutFinalDot_eq_self (by rw [pieces_eq_splitOn, hcut]; exact hnil), hcut, if_neg]
    intro hempty
    rw [hempty] at hcut
    exact hnil (hcut ▸ List.mem_singleton_self [])

/-- **A name is written as it was spelled** if its labels are plain. -/
theorem labelledEffect_ofLabels :
    labelledEffect (ofLabels labels) = .add (spelled labels) := by
  have hlabels : Effect.all ((labels.map Utf8.decode).map labelEffect) =
      .add (labels.flatMap fun label => UInt8.ofNat label.length :: label) :=
    Effect.all_map_map_of_mem fun label hmem =>
      (hplain label hmem).labelEffect_decode (hreadable label hmem).1
  rw [labelledEffect, labels_ofLabels hplain hreadable, hlabels]
  rfl

end Labels

end Name

/-! ## Records -/

/-- A number of octets that has been put into two octets is known from them. -/
theorem Octets.length_inj {bs bs' : Octets} (hle : bs.length ≤ 65535) (hle' : bs'.length ≤ 65535)
    (h : Octets.ofUInt16 (UInt16.ofNat bs.length) = Octets.ofUInt16 (UInt16.ofNat bs'.length)) :
    bs.length = bs'.length := by
  have hnumber := congrArg (fun bs => Octets.uint16 (bs.getD 0 0) (bs.getD 1 0)) h
  have heq : UInt16.ofNat bs.length = UInt16.ofNat bs'.length :=
    (Octets.uint16_ofUInt16 _).symm.trans (hnumber.trans (Octets.uint16_ofUInt16 _))
  rw [← UInt16.toNat_ofNat_of_lt' (Nat.lt_succ_of_le hle), heq]
  exact UInt16.toNat_ofNat_of_lt' (Nat.lt_succ_of_le hle')

/-- **A record as it was spelled.** The labels of each name are those that can be
read, and the counts and the length of the names can be put into the octets that
there are for them. -/
structure Record.Spelling where
  client : Address
  /-- The labels of the names. -/
  names : List (List Octets)
  /-- What is behind the names. -/
  padding : Octets
  addresses : List Address
  readable : ∀ labels ∈ names, ∀ label ∈ labels, Name.ReadableLabel label
  names_le : names.length ≤ 255
  addresses_le : addresses.length ≤ 255
  stretch_le : (names.flatMap Name.spelled ++ padding).length ≤ 65535

namespace Record.Spelling

/-- The record that is spelled. -/
def record (s : Spelling) : Record := ⟨s.client, s.names.map Name.ofLabels, s.addresses⟩

/-- The octets of the names, without the padding. -/
def encodedNames (s : Spelling) : Octets := s.names.flatMap Name.spelled

/-- The octets of the record, if the given ones were behind the names. -/
def octetsWith (s : Spelling) (padding : Octets) : Octets :=
  s.client.octets ++ [UInt8.ofNat s.names.length, UInt8.ofNat s.addresses.length] ++
    Octets.ofUInt16 (UInt16.ofNat (s.encodedNames ++ padding).length) ++
    (s.encodedNames ++ padding) ++ s.addresses.flatMap Address.octets

/-- The octets of the record. -/
def octets (s : Spelling) : Octets := s.octetsWith s.padding

/-- **Where a record is spelled, it is not spelled in another way.** -/
theorem append_inj_of_octets {s s' : Spelling} {rest rest' : Octets}
    (hrecord : s.record = s'.record) (h : s.octets ++ rest = s'.octets ++ rest') :
    s = s' ∧ rest = rest' := by
  obtain ⟨client, names, padding, addresses, hreadable, _, _, hle⟩ := s
  obtain ⟨client', names', padding', addresses', hreadable', _, _, hle'⟩ := s'
  obtain ⟨rfl, hnames, rfl⟩ := Record.mk.inj hrecord
  have hcount : names.length = names'.length := by
    rw [← List.length_map Name.ofLabels, hnames, List.length_map]
  simp only [octets, octetsWith, encodedNames, hcount, List.append_assoc,
    List.append_cancel_left_eq] at h
  obtain ⟨hsize, hbehind⟩ := List.append_inj h rfl
  rw [← List.append_assoc, ← List.append_assoc (names'.flatMap Name.spelled)] at hbehind
  obtain ⟨hstretch, hrest⟩ := List.append_inj hbehind (Octets.length_inj hle hle' hsize)
  obtain ⟨rfl, rfl⟩ := Name.append_inj_of_spelled hreadable hreadable' hcount hstretch
  exact ⟨rfl, List.append_cancel_left hrest⟩

/-- **Nor are several records**, one after the other. -/
theorem eq_of_flatMap_octets {ss ss' : List Spelling} {rest rest' : Octets}
    (hrecords : ss.map record = ss'.map record)
    (h : ss.flatMap octets ++ rest = ss'.flatMap octets ++ rest') : ss = ss' := by
  induction ss generalizing ss' with
  | nil => exact (List.map_eq_nil_iff.mp hrecords.symm).symm
  | cons s ss ih =>
    obtain ⟨s', ss', rfl, hrecord, hothers⟩ := List.map_eq_cons_iff.mp hrecords.symm
    rw [List.flatMap_cons, List.flatMap_cons, List.append_assoc, List.append_assoc] at h
    obtain ⟨rfl, hmore⟩ := append_inj_of_octets hrecord.symm h
    rw [ih hothers.symm hmore]

end Record.Spelling

/-- **A record with labelled names is the record of some spelling.** -/
theorem Record.exists_spelling {v : Version} (hv : v ≠ .v0) {r : Record} {bs : Octets}
    (h : Form v r bs) : ∃ s : Spelling, s.record = r ∧ s.octets = bs := by
  obtain ⟨client, names, addresses⟩ := r
  obtain ⟨nameCount, addressCount, length, stretch, rfl, hnames, haddresses, hlength, hform⟩ := h
  rw [NameList.form_of_ne hv] at hform
  obtain ⟨encoded, padding, rfl, hencoded⟩ := hform
  obtain ⟨labels, hreadable, rfl, rfl⟩ :=
    hencoded.exists_map (P := fun labels => ∀ label ∈ labels, Name.ReadableLabel label)
      fun _ _ ⟨labels, hrun, hname⟩ => ⟨labels, hrun.readable, hname.symm, hrun.eq_spelled⟩
  have hcount : nameCount.toNat = labels.length := hnames.trans (List.length_map _)
  refine ⟨⟨client, labels, padding, addresses, hreadable, ?_, ?_, ?_⟩, rfl, ?_⟩
  · exact hcount ▸ Nat.le_of_lt_succ nameCount.toNat_lt
  · exact haddresses ▸ Nat.le_of_lt_succ addressCount.toNat_lt
  · exact hlength ▸ Nat.le_of_lt_succ length.toNat_lt
  · have hnameCount : UInt8.ofNat labels.length = nameCount := hcount ▸ UInt8.ofNat_toNat
    have haddressCount : UInt8.ofNat addresses.length = addressCount :=
      haddresses ▸ UInt8.ofNat_toNat
    have hstretch : UInt16.ofNat (labels.flatMap Name.spelled ++ padding).length = length :=
      hlength ▸ UInt16.ofNat_toNat
    simp only [Spelling.octets, Spelling.octetsWith, Spelling.encodedNames, hnameCount,
      haddressCount, hstretch]

namespace Message

/-- A payload from which records were read goes on with them behind the header. -/
theorem exists_sequence_of_decode {p : Octets} {m : Message} (h : decode .full p = .ok m)
    {rs : List Record} (hbody : m.body = .records rs) :
    ∃ records rest, p = m.header.octets ++ records ++ rest ∧
      Sequence (Record.Form m.header.version) rs records := by
  obtain ⟨_, rest, rfl, header, records, rfl, hheader, hform⟩ := decode_eq_ok_iff_form.mp h
  rw [hbody] at hform
  obtain ⟨-, -, hrecords⟩ := hform
  exact ⟨records, rest, by rw [hheader.1]; rfl, hrecords⟩

/-- **The spellings of the records in a payload**: the records of the message are
theirs, and the payload goes on with their octets behind the header. -/
def SpelledIn (p : Octets) (m : Message) (ss : List Record.Spelling) : Prop :=
  m.body = .records (ss.map Record.Spelling.record) ∧
    ∃ rest, p = m.header.octets ++ ss.flatMap Record.Spelling.octets ++ rest

/-- **The records that a message was read with are spelled** where it was read, each
in one way. -/
theorem existsUnique_spelledIn {p : Octets} {m : Message} (h : decode .full p = .ok m)
    (hv : m.header.version ≠ .v0) {rs : List Record} (hbody : m.body = .records rs) :
    ∃! ss, m.SpelledIn p ss := by
  obtain ⟨_, rest, hp, hrecords⟩ := exists_sequence_of_decode h hbody
  obtain ⟨ss, -, rfl, rfl⟩ := hrecords.exists_map (P := fun _ => True)
    fun r bs hr => (Record.exists_spelling hv hr).imp fun s hs => ⟨trivial, hs⟩
  refine ⟨ss, ⟨hbody, rest, hp⟩, fun ss' hss' => ?_⟩
  obtain ⟨hbody', rest', hp'⟩ := hss'
  have hoctets := hp'.symm.trans hp
  rw [List.append_assoc, List.append_assoc] at hoctets
  exact Record.Spelling.eq_of_flatMap_octets (Body.records.inj (hbody'.symm.trans hbody))
    (List.append_cancel_left hoctets)

end Message

end FlowTelemetry

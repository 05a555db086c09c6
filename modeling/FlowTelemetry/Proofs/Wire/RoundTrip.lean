import FlowTelemetry.Proofs.Wire.Reading
import FlowTelemetry.Proofs.Wire.Writing

/-!
# What was written reads back

Writing and reading are not quite inverse to each other. A labelled name has
no place for a dot at its end, and counters have a place for the sampling
rate in one version only, so a message that is written and read comes back in
its *normal form* (`Message.normalised`). Everything else comes back as it
was: the header with all of its flags, the clients, the addresses, and how
many records and names there are and in which order.

The proof does not run the reader on what the writer added. It is enough that
the octets of an effect that does not fail are a form of the normal form
(`Message.form_of_effect`), because the reader accepts every form, whatever
follows it.

## Which messages

A header and a body that contradict each other can be put together and
written, but they cannot be read back. They do not come about otherwise: a
message is made from a snapshot, from records, or by reading, and all three
give a header that fits its body (`Message.Made.coherent`).
-/

namespace FlowTelemetry

open WireForm

/-! ## Normal forms -/

/-- A name as it reads back: without one dot at its end where names are
labelled. -/
def Name.normalised (v : Version) (name : String) : String :=
  if v.hasLabels then String.ofList (withoutFinalDot name.toList) else name

/-- A record with its names as they read back. -/
def Record.normalised (v : Version) (r : Record) : Record :=
  { r with names := r.names.map (Name.normalised v) }

/-- A snapshot with the sampling rate that reads back. -/
def Snapshot.normalised (v : Version) (s : Snapshot) : Snapshot :=
  { s with sampleRate := if v.hasSampleRate then some (s.sampleRate.getD 0) else none }

/-- A body as it reads back. -/
def Body.normalised (v : Version) : Body → Body
  | .stats s => .stats (s.normalised v)
  | .records rs => .records (rs.map (Record.normalised v))

/-- **A message as it reads back**, under the header it was written with. -/
def Message.normalised (m : Message) : Message :=
  { m with body := m.body.normalised m.header.version }

/-- **How messages come about.** -/
inductive Message.Made : Message → Prop where
  | ofSnapshot (v : Version) (sequence : UInt32) (s : Snapshot) :
      Made (.ofSnapshot v sequence s)
  | ofRecords {v : Version} {sequence : UInt32} {rs : List Record} {m : Message} :
      Message.ofRecords v sequence rs = .ok m → Made m
  | decoded {p : Octets} {m : Message} : Message.decode .full p = .ok m → Made m

/-! ## Names -/

namespace Utf8

/-- Only the character NUL is written with a NUL. -/
theorem eq_nul_of_zero_mem_encodeChar {c : Char} (h : 0 ∈ encodeChar c) : c = Char.ofNat 0 := by
  have hzero : ∀ n : Nat, (0 : UInt8) = UInt8.ofNat n → n % 256 = 0 := by
    intro n hn
    have := congrArg UInt8.toNat hn
    rw [UInt8.toNat_ofNat'] at this
    exact this.symm
  have hvalid := toNat_cases c
  unfold encodeChar at h
  dsimp only at h
  have hnat : c.toNat = 0 := by
    split at h
    · have := hzero _ (List.mem_singleton.mp h)
      omega
    · split at h
      · simp only [List.mem_cons, List.not_mem_nil, or_false] at h
        rcases h with h | h <;> have := hzero _ h <;> omega
      · split at h
        · simp only [List.mem_cons, List.not_mem_nil, or_false] at h
          rcases h with h | h | h <;> have := hzero _ h <;> omega
        · simp only [List.mem_cons, List.not_mem_nil, or_false] at h
          rcases h with h | h | h | h <;> have := hzero _ h <;> omega
  rw [← hnat, Char.ofNat_toNat]

/-- A text without the character NUL is written without a NUL. -/
theorem zero_notMem_octets {s : String} (h : Char.ofNat 0 ∉ s.toList) : 0 ∉ octets s := by
  intro hmem
  obtain ⟨c, hc, hzero⟩ := List.mem_flatMap.mp hmem
  exact h (eq_nul_of_zero_mem_encodeChar hzero ▸ hc)

end Utf8

namespace NameList

/-- No names lie in front of anything. -/
theorem terminated_nil (bs : Octets) : Terminated [] bs := ⟨Nat.zero_le _, rfl⟩

/-- A name and its NUL in front of other names. -/
theorem Terminated.cons {names : List String} {name rest : Octets} (hname : 0 ∉ name)
    (h : Terminated names rest) : Terminated (Utf8.text name :: names) (name ++ 0 :: rest) := by
  obtain ⟨hlength, hnames⟩ := h
  unfold Terminated
  rw [List.splitOn_append_cons_self_of_not_mem hname]
  refine ⟨Nat.succ_le_succ hlength, ?_⟩
  rw [List.length_cons, List.take_succ_cons, List.map_cons, ← hnames]

end NameList

namespace Name

theorem terminatedEffect_eq_add_iff {name : String} {bs : Octets} :
    terminatedEffect name = .add bs ↔
      Char.ofNat 0 ∉ name.toList ∧ bs = Utf8.octets name ++ [0] := by
  unfold terminatedEffect
  by_cases h : name.toList.contains (Char.ofNat 0)
  · rw [if_pos h]
    exact ⟨fun heq => (nomatch congrArg Effect.failure heq),
      fun hn => absurd (List.contains_iff_mem.mp h) hn.1⟩
  · rw [if_neg h]
    exact ⟨fun heq => ⟨fun hmem => h (List.contains_iff_mem.mpr hmem),
      (Effect.add_injective heq).symm⟩, fun hn => congrArg Effect.add hn.2.symm⟩

theorem labelEffect_eq_add_iff {label : List Char} {bs : Octets} :
    labelEffect label = .add bs ↔
      1 ≤ (Utf8.encode label).length ∧ (Utf8.encode label).length ≤ maxLabelLength ∧
        bs = UInt8.ofNat (Utf8.encode label).length :: Utf8.encode label := by
  unfold labelEffect
  by_cases h : (Utf8.encode label).isEmpty || (Utf8.encode label).length > maxLabelLength
  · rw [if_pos h]
    rw [Bool.or_eq_true, List.isEmpty_iff_length_eq_zero, decide_eq_true_eq] at h
    constructor
    · exact fun heq => nomatch congrArg Effect.failure heq
    · rintro ⟨hpos, hle, -⟩
      omega
  · rw [if_neg h]
    rw [Bool.or_eq_true, List.isEmpty_iff_length_eq_zero, decide_eq_true_eq] at h
    constructor
    · exact fun heq => ⟨by omega, by omega, (Effect.add_injective heq).symm⟩
    · rintro ⟨-, -, rfl⟩
      rfl

/-- The labels of a name make up the name, without one dot at its end. -/
theorem intercalate_labels (name : String) :
    ['.'].intercalate (labels name) = withoutFinalDot name.toList := by
  unfold labels
  split
  · next h => rw [h]; rfl
  · next cs hne =>
    rw [pieces_eq_splitOn, List.intercalate_splitOn]

/-- Labels that may be written are written as a run. -/
theorem run_of_effect {labels : List (List Char)} {bs : Octets}
    (h : Effect.all (labels.map labelEffect) = .add bs) :
    Run (labels.map Utf8.encode) (bs ++ [0]) := by
  induction labels generalizing bs with
  | nil =>
    cases Effect.add_injective h
    exact Run.root
  | cons label labels ih =>
    obtain ⟨first, second, hlabel, hlabels, rfl⟩ := Effect.seq_eq_add_iff.mp h
    obtain ⟨hpos, hle, rfl⟩ := labelEffect_eq_add_iff.mp hlabel
    rw [List.append_assoc]
    exact Run.label hpos (Nat.le_trans hle (by decide)) (ih hlabels)

/-- **A labelled name is written as its normal form.** -/
theorem labelled_of_effect {name : String} {bs : Octets} (h : labelledEffect name = .add bs) :
    Labelled (String.ofList (withoutFinalDot name.toList)) bs := by
  obtain ⟨first, _, hlabels, hroot, rfl⟩ := Effect.seq_eq_add_iff.mp h
  cases Effect.add_injective hroot
  refine ⟨(labels name).map Utf8.encode, run_of_effect hlabels, ?_⟩
  have hdecode : Utf8.decode ∘ Utf8.encode = id := funext Utf8.decode_encode
  unfold ofLabels
  rw [List.map_map, hdecode, List.map_id, intercalate_labels]

end Name

namespace NameList

/-- Labelled names are written as a sequence of their normal forms. -/
theorem sequence_of_effect {names : List String} {bs : Octets}
    (h : Effect.all (names.map Name.labelledEffect) = .add bs) :
    Sequence Name.Labelled
      (names.map fun name => String.ofList (Name.withoutFinalDot name.toList)) bs := by
  induction names generalizing bs with
  | nil =>
    cases Effect.add_injective h
    exact Sequence.nil
  | cons name names ih =>
    obtain ⟨first, second, hname, hnames, rfl⟩ := Effect.seq_eq_add_iff.mp h
    exact Sequence.cons (Name.labelled_of_effect hname) (ih hnames)

/-- Terminated names are written as they are. -/
theorem terminated_of_effect {names : List String} {bs : Octets}
    (h : Effect.all (names.map Name.terminatedEffect) = .add bs) (padding : Octets) :
    Terminated names (bs ++ padding) := by
  induction names generalizing bs with
  | nil => exact terminated_nil _
  | cons name names ih =>
    obtain ⟨first, second, hname, hnames, rfl⟩ := Effect.seq_eq_add_iff.mp h
    obtain ⟨hnul, rfl⟩ := Name.terminatedEffect_eq_add_iff.mp hname
    have hcons := (ih hnames).cons (Utf8.zero_notMem_octets hnul)
    rw [Utf8.text_octets] at hcons
    rw [List.append_assoc, List.append_assoc]
    exact hcons

/-- **Names are written as their normal forms**, whatever the padding. -/
theorem form_of_effect {v : Version} {names : List String} {bs : Octets}
    (h : effect v names = .add bs) (padding : Octets) :
    Form v (names.map (Name.normalised v)) (bs ++ padding) := by
  cases v with
  | v0 =>
    rw [show Name.normalised .v0 = id from rfl, List.map_id]
    exact terminated_of_effect h padding
  | v1 => exact ⟨bs, padding, rfl, sequence_of_effect h⟩
  | v2 => exact ⟨bs, padding, rfl, sequence_of_effect h⟩

end NameList

/-! ## Records and counters -/

/-- **A record is written as its normal form.** -/
theorem Record.form_of_effect {v : Version} {r : Record} {bs : Octets}
    (h : effect v r = .add bs) : Form v (r.normalised v) bs := by
  unfold effect at h
  split at h
  · exact nomatch congrArg Effect.failure h
  · next hcounts =>
    rw [Bool.or_eq_true, decide_eq_true_eq, decide_eq_true_eq, not_or] at hcounts
    obtain ⟨_, _, hfront, hrest, rfl⟩ := Effect.seq_eq_add_iff.mp h
    obtain ⟨_, _, hnames, haddresses, rfl⟩ := Effect.seq_eq_add_iff.mp hrest
    obtain ⟨padded, hpadded, hlength, rfl⟩ := Effect.lengthPrefixed_eq_add_iff.mp hnames
    obtain ⟨names, heffect, hpad⟩ := Effect.padded_eq_add_iff.mp hpadded
    cases Effect.add_injective hfront
    cases Effect.add_injective haddresses
    refine ⟨UInt8.ofNat r.names.length, UInt8.ofNat r.addresses.length,
      UInt16.ofNat padded.length, padded, ?_, ?_, ?_, ?_, ?_⟩
    · unfold front
      simp only [List.append_assoc]
      rfl
    · have hcount := UInt8.toNat_ofNat_of_lt' (Nat.lt_succ_of_le (Nat.le_of_not_gt hcounts.1))
      exact hcount.trans (List.length_map _).symm
    · exact UInt8.toNat_ofNat_of_lt' (Nat.lt_succ_of_le (Nat.le_of_not_gt hcounts.2))
    · exact UInt16.toNat_ofNat_of_lt' (Nat.lt_succ_of_le hlength)
    · rw [hpad]
      exact NameList.form_of_effect heffect _

/-- **Counters are written as their normal form.** -/
theorem Snapshot.form_octets (v : Version) (s : Snapshot) :
    Form v (s.normalised v) (s.octets v) := by
  cases v with
  | v0 | v1 => exact ⟨rfl, by simp [normalised, Version.hasSampleRate]⟩
  | v2 => exact ⟨rfl, by simp [normalised, Version.hasSampleRate]⟩

/-! ## Messages -/

namespace Message

/-- The header fits the body: it announces what there is. -/
def Coherent (m : Message) : Prop :=
  (m.header.flags.LowBit ∨ 0 < m.header.setCount.toNat) ∧
    match m.body with
    | .stats _ => m.header.flags.LowBit
    | .records rs => ¬ m.header.flags.LowBit ∧ rs.length = m.header.setCount.toNat

/-- **The header of a message fits its body**, however the message came
about. -/
theorem Made.coherent {m : Message} (made : m.Made) : m.Coherent := by
  cases made with
  | ofSnapshot v sequence s =>
    have hbit : Flags.stats.LowBit := rfl
    exact ⟨Or.inl hbit, hbit⟩
  | @ofRecords v sequence rs _ h =>
    unfold Message.ofRecords at h
    split at h
    · exact nomatch h
    · next hcount =>
      cases h
      rw [Bool.or_eq_true, decide_eq_true_eq, not_or] at hcount
      have hlength : rs.length = (UInt8.ofNat rs.length).toNat :=
        (UInt8.toNat_ofNat_of_lt' (Nat.lt_succ_of_le (Nat.le_of_not_gt hcount.2))).symm
      have hpos : 0 < rs.length :=
        List.length_pos_iff.mpr (fun h => hcount.1 (List.isEmpty_iff.mpr h))
      exact ⟨Or.inr (hlength ▸ hpos), (by decide : ¬ Flags.none.bits.toNat % 2 = 1), hlength⟩
  | decoded h =>
    obtain ⟨_, _, -, header, body, -, hheader, hbody⟩ := decode_eq_ok_iff_form.mp h
    obtain ⟨h, b⟩ := m
    cases b with
    | stats s => exact ⟨hheader.2, hbody.1⟩
    | records rs => exact ⟨hheader.2, hbody.1, hbody.2.1⟩

/-- Records are written as a sequence of their normal forms. -/
theorem sequence_of_effect {v : Version} {rs : List Record} {bs : Octets}
    (h : Effect.all (rs.map (Record.effect v)) = .add bs) :
    Sequence (Record.Form v) (rs.map (Record.normalised v)) bs := by
  induction rs generalizing bs with
  | nil =>
    cases Effect.add_injective h
    exact Sequence.nil
  | cons r rs ih =>
    obtain ⟨first, second, hr, hrs, rfl⟩ := Effect.seq_eq_add_iff.mp h
    exact Sequence.cons (Record.form_of_effect hr) (ih hrs)

/-- **A body is written as its normal form**, under a header that fits. -/
theorem Coherent.form_of_bodyEffect {m : Message} (hm : m.Coherent) {bs : Octets}
    (h : bodyEffect m.header.version m.body = .add bs) :
    (m.body.normalised m.header.version).Form m.header bs := by
  obtain ⟨header, body⟩ := m
  cases body with
  | stats s =>
    cases Effect.add_injective h
    exact ⟨hm.2, Snapshot.form_octets header.version s⟩
  | records rs =>
    exact ⟨hm.2.1, (List.length_map _).trans hm.2.2, sequence_of_effect h⟩

/-- **A message is written as its normal form**, however it came about. -/
theorem Made.form_of_encode {m : Message} (made : m.Made) {bs : Octets}
    (h : m.encode = .ok bs) : m.normalised.Form bs := by
  have hm := made.coherent
  obtain ⟨_, body, hheader, hbody, rfl⟩ := Effect.seq_eq_add_iff.mp (encode_eq_ok_iff.mp h)
  cases Effect.add_injective hheader
  exact ⟨m.header.octets, body, rfl, ⟨rfl, hm.1⟩, hm.form_of_bodyEffect hbody⟩

/-- **What was written reads back as its normal form**, whatever follows
it. -/
theorem decode_encode_append {m : Message} (made : m.Made) {bs : Octets}
    (h : m.encode = .ok bs) (rest : Octets) : decode .full (bs ++ rest) = .ok m.normalised :=
  decode_eq_ok_iff_form.mpr ⟨bs, rest, rfl, made.form_of_encode h⟩

/-- A message with a name that ends in a dot, the root name, and a NUL within
a label. -/
def dotted : Message :=
  { header := { version := .v1, setCount := 1, flags := .none, sequence := 7 }
    body := .records [⟨⟨10, 0, 0, 1⟩, ["a.é.", ".", "x\x00"], [⟨192, 0, 2, 1⟩]⟩] }

/-- The dots do not come back, and the octets behind the message do not
matter. -/
theorem decode_encode_dotted :
    dotted.Made ∧
      dotted.encode = .ok [1, 1, 0, 0, 0, 0, 0, 7, 10, 0, 0, 1, 3, 1, 0, 12, 1, 97, 2, 195, 169, 0,
        0, 2, 120, 0, 0, 0, 192, 0, 2, 1] ∧
      decode .full ([1, 1, 0, 0, 0, 0, 0, 7, 10, 0, 0, 1, 3, 1, 0, 12, 1, 97, 2, 195, 169, 0,
        0, 2, 120, 0, 0, 0, 192, 0, 2, 1] ++ [1, 97]) =
        .ok { dotted with
          body := .records [⟨⟨10, 0, 0, 1⟩, ["a.é", "", "x\x00"], [⟨192, 0, 2, 1⟩]⟩] } := by
  have made : dotted.Made := @Made.ofRecords .v1 7 dotted.body.recordList dotted rfl
  have hencode : dotted.encode = .ok [1, 1, 0, 0, 0, 0, 0, 7, 10, 0, 0, 1, 3, 1, 0, 12, 1, 97, 2,
      195, 169, 0, 0, 2, 120, 0, 0, 0, 192, 0, 2, 1] := by cbv
  refine ⟨made, hencode, (decode_encode_append made hencode [1, 97]).trans ?_⟩
  exact congrArg Except.ok (by decide)

end Message

end FlowTelemetry

import FlowTelemetry.Proofs.Octets.Pieces
import FlowTelemetry.Proofs.Wire.Acceptance

/-!
# Reading accepts the grammar

The reader of every part of a message accepts the form of that part, and
`decode_full_eq_ok_iff` is what this comes to for whole datagrams: a message
is read from exactly those octets that begin with its form.

The readers of names are not cursors over the message. They are functions on
a stretch of octets that was cut out by its length, so what they do is first
stated for such stretches, and then `accepts_readNames` puts the stretch back
between the length before it and the addresses after it.
-/

namespace FlowTelemetry

open WireForm

/-! ## Names -/

namespace Name

/-- A length octet of a label is not the zero that ends a name. -/
theorem toNat_labelLength {label : Octets} (h : label.length ≤ 255) :
    (UInt8.ofNat label.length).toNat = label.length := by
  rw [UInt8.toNat_ofNat']
  exact Nat.mod_eq_of_lt (Nat.lt_succ_of_le h)

theorem labelLength_ne_zero {label : Octets} (hpos : 1 ≤ label.length)
    (hle : label.length ≤ 255) : UInt8.ofNat label.length ≠ 0 := by
  intro h0
  have hlength := toNat_labelLength hle
  rw [h0] at hlength
  exact absurd hpos (by rw [← hlength]; decide)

/-- The length octet of a label cuts it out of what it stands in front of. -/
theorem split?_label {label : Octets} (hle : label.length ≤ 255) (rest : Octets) :
    Octets.split? (UInt8.ofNat label.length).toNat (label ++ rest) = some (label, rest) :=
  Octets.split?_eq_some_iff.mpr ⟨rfl, (toNat_labelLength hle).symm⟩

/-- What is cut out by a length octet that does not end the name is a label. -/
theorem label_of_split? {n : UInt8} {bs label after : Octets} (hne : n ≠ 0)
    (h : Octets.split? n.toNat bs = some (label, after)) :
    bs = label ++ after ∧ 1 ≤ label.length ∧ label.length ≤ 255 ∧ n = UInt8.ofNat label.length := by
  obtain ⟨hbs, hlength⟩ := Octets.split?_eq_some_iff.mp h
  rw [hlength]
  exact ⟨hbs, Nat.pos_of_ne_zero fun h0 => hne (UInt8.toNat_inj.mp h0),
    Nat.le_of_lt_succ n.toNat_lt, UInt8.ofNat_toNat.symm⟩

/-- **A run of labels is taken off whatever follows it.** -/
theorem takeLabels_append {labels : List Octets} {run : Octets} (h : Run labels run)
    (rest : Octets) : takeLabels (run ++ rest) = .ok (labels, rest) := by
  induction h with
  | root =>
    rw [List.singleton_append, takeLabels, if_pos rfl]
  | @label label labels run hpos hle _ ih =>
    have hsplit := split?_label hle (run ++ rest)
    rw [List.cons_append, List.append_assoc, takeLabels,
      if_neg (labelLength_ne_zero hpos hle)]
    split
    · next hnone => exact absurd (hnone.symm.trans hsplit) (by simp)
    · next label' after hsome =>
      cases hsome.symm.trans hsplit
      simp only [ih]

/-- **What is taken as labels is a run of them.** -/
theorem run_of_takeLabels {bs : Octets} {labels : List Octets} {rest : Octets}
    (h : takeLabels bs = .ok (labels, rest)) : ∃ run, bs = run ++ rest ∧ Run labels run := by
  fun_induction takeLabels bs generalizing labels with
  | case1 => exact nomatch h
  | case2 bs =>
    cases h
    exact ⟨[0], rfl, Run.root⟩
  | case3 => exact nomatch h
  | case4 n bs hne label after hsplit _ more beyond hmore ih =>
    cases h
    obtain ⟨run, rfl, hrun⟩ := ih hmore
    obtain ⟨rfl, hpos, hle, rfl⟩ := label_of_split? hne hsplit
    exact ⟨UInt8.ofNat label.length :: (label ++ run), by simp, Run.label hpos hle hrun⟩
  | case5 => exact nomatch h

theorem takeLabels_eq_ok_iff {bs : Octets} {labels : List Octets} {rest : Octets} :
    takeLabels bs = .ok (labels, rest) ↔ ∃ run, bs = run ++ rest ∧ Run labels run := by
  constructor
  · exact run_of_takeLabels
  · rintro ⟨run, rfl, hrun⟩
    exact takeLabels_append hrun rest

end Name

namespace NameList

/-- **Terminated names are the first pieces**, and if there are too few of them,
then all octets were gone through. -/
theorem decodeTerminated_eq (count : Nat) (bs : Octets) :
    decodeTerminated count bs =
      if count ≤ (bs.splitOn 0).length then .ok (((bs.splitOn 0).take count).map Utf8.text)
      else .error ⟨(bs.splitOn 0).length, bs.length⟩ := by
  unfold decodeTerminated
  rw [← pieces_eq_splitOn]
  dsimp only
  rw [List.length_map, List.length_take]
  by_cases h : count ≤ (pieces 0 bs).length
  · rw [if_pos h, if_neg (by omega)]
  · have hall : (pieces 0 bs).take count = pieces 0 bs := List.take_of_length_le (by omega)
    have hoffset : (pieces 0 bs).foldl (fun offset piece => offset + (piece.length + 1)) 0 =
        bs.length + 1 := by
      rw [← sum_length_pieces 0 bs, List.sum_eq_foldl, List.foldl_map]
    have hover : min bs.length (bs.length + 1) = bs.length := Nat.min_eq_left (Nat.le_succ _)
    rw [if_neg h, if_pos (by omega), hall, hoffset, hover,
      Nat.min_eq_right (Nat.le_of_not_le h)]

/-- Terminated names are those of the grammar. -/
theorem decodeTerminated_eq_ok_iff {count : Nat} {bs : Octets} {names : List String} :
    decodeTerminated count bs = .ok names ↔ names.length = count ∧ Terminated names bs := by
  rw [decodeTerminated_eq]
  unfold Terminated
  by_cases h : count ≤ (bs.splitOn 0).length
  · rw [if_pos h]
    constructor
    · intro hok
      cases hok
      have hlength : (((bs.splitOn 0).take count).map Utf8.text).length = count := by
        rw [List.length_map, List.length_take, Nat.min_eq_left h]
      exact ⟨hlength, by rw [hlength]; exact h, by rw [hlength]⟩
    · rintro ⟨rfl, -, hnames⟩
      rw [← hnames]
  · rw [if_neg h]
    constructor
    · exact fun hok => nomatch hok
    · rintro ⟨rfl, hle, -⟩
      exact absurd hle h

/-- Labelled names are those of the grammar, whatever the index of the first
and however long the whole list is. -/
theorem takeLabelled_eq_ok_iff {size index count : Nat} {bs : Octets} {names : List String} :
    takeLabelled size index count bs = .ok names ↔ names.length = count ∧ Labelled names bs := by
  induction count generalizing index bs names with
  | zero =>
    unfold takeLabelled
    constructor
    · intro h
      cases h
      exact ⟨rfl, [], bs, rfl, Sequence.nil⟩
    · rintro ⟨hlength, -⟩
      rw [List.eq_nil_of_length_eq_zero hlength]
  | succ count ih =>
    unfold takeLabelled
    constructor
    · intro h
      cases htake : Name.takeLabels bs with
      | error left => rw [htake] at h; exact nomatch h
      | ok taken =>
        obtain ⟨labels, after⟩ := taken
        rw [htake] at h
        dsimp only at h
        cases hmore : takeLabelled size (index + 1) count after with
        | error e => rw [hmore] at h; exact nomatch h
        | ok more =>
          rw [hmore] at h
          cases h
          obtain ⟨hlength, encoded, padding, rfl, hsequence⟩ := ih.mp hmore
          obtain ⟨run, rfl, hrun⟩ := Name.takeLabels_eq_ok_iff.mp htake
          exact ⟨by rw [List.length_cons, hlength], run ++ encoded, padding,
            (List.append_assoc _ _ _).symm, Sequence.cons ⟨labels, hrun, rfl⟩ hsequence⟩
    · rintro ⟨hlength, encoded, padding, rfl, hsequence⟩
      cases hsequence with
      | nil => exact absurd hlength (Nat.succ_ne_zero count).symm
      | @cons name names run encoded hname hsequence =>
        obtain ⟨labels, hrun, rfl⟩ := hname
        have hmore := (@ih (index + 1) _ names).mpr
          ⟨Nat.succ.inj hlength, encoded, padding, rfl, hsequence⟩
        rw [List.append_assoc, Name.takeLabels_append hrun]
        simp only [hmore]
        rfl

/-- **Lists of names are read as the grammar has them.** -/
theorem decode_eq_ok_iff {v : Version} {count : Nat} {bs : Octets} {names : List String} :
    decode v count bs = .ok names ↔ names.length = count ∧ Form v names bs := by
  cases v with
  | v0 => exact decodeTerminated_eq_ok_iff
  | v1 => exact takeLabelled_eq_ok_iff
  | v2 => exact takeLabelled_eq_ok_iff

end NameList

/-! ## Records -/

namespace Record

/-- Names are read from a stretch of the given length, all of which is gone
past. -/
theorem accepts_readNames (v : Version) (index count length : Nat) :
    (readNames v index count length).Accepts fun names bs =>
      bs.length = length ∧ names.length = count ∧ NameList.Form v names bs := by
  rintro ⟨position, rest⟩ ⟨position', rest'⟩ names
  unfold readNames Cursor.take?
  cases hsplit : Octets.split? length rest with
  | none =>
    constructor
    · exact fun h => nomatch h
    · rintro ⟨bs, ⟨hlength, -⟩, rfl, -⟩
      have := hsplit.symm.trans (Octets.split?_eq_some_iff.mpr ⟨rfl, hlength⟩)
      exact nomatch this
  | some parts =>
    obtain ⟨stretch, after⟩ := parts
    obtain ⟨rfl, hlength⟩ := Octets.split?_eq_some_iff.mp hsplit
    simp only
    constructor
    · intro h
      cases hdecode : NameList.decode v count stretch with
      | error e => rw [hdecode] at h; exact nomatch h
      | ok names' =>
        rw [hdecode] at h
        cases h
        obtain ⟨hcount, hform⟩ := NameList.decode_eq_ok_iff.mp hdecode
        exact ⟨stretch, ⟨hlength, hcount, hform⟩, rfl, by rw [hlength]⟩
    · rintro ⟨bs, ⟨hbs, hcount, hform⟩, happend, hposition⟩
      obtain ⟨rfl, rfl⟩ := List.append_inj happend (hlength.trans hbs.symm)
      rw [NameList.decode_eq_ok_iff.mpr ⟨hcount, hform⟩, ← hbs]
      simp only [hposition]

/-- **A record is read as the grammar has it**, whatever its index. -/
theorem accepts_read (v : Version) (index : Nat) : (read v index).Accepts (Form v) := by
  have hfield : ∀ {α : Type} {take : Cursor → Option (α × Cursor)} {F : WireForm α}
      (part : RecordField), Cursor.Takes take F → (readField index part take).Accepts F :=
    fun _ h => Reader.accepts_field h _
  refine (Reader.accepts_bind (hfield .client Cursor.takes_address?) fun client =>
    Reader.accepts_bind (hfield .nameCount Cursor.takes_u8?) fun nameCount =>
    Reader.accepts_bind (hfield .addressCount Cursor.takes_u8?) fun addressCount =>
    Reader.accepts_bind (hfield .namesLength Cursor.takes_u16?) fun length =>
    Reader.accepts_bind (accepts_readNames v index nameCount.toNat length.toNat) fun names =>
    Reader.accepts_bind (Reader.accepts_times (hfield .addresses Cursor.takes_address?)
      addressCount.toNat) fun addresses =>
    Reader.accepts_pure (Record.mk client names addresses)).congr fun r bs => ⟨?_, ?_⟩
  · rintro ⟨client, _, _, rfl, rfl, nameCount, _, _, rfl, rfl, addressCount, _, _, rfl, rfl,
      length, _, _, rfl, rfl, names, stretch, _, rfl, ⟨hlength, hcount, hform⟩,
      addresses, _, _, rfl, ⟨haddresses, hsequence⟩, rfl, rfl⟩
    refine ⟨nameCount, addressCount, length, stretch, ?_, hcount.symm, haddresses.symm,
      hlength.symm, hform⟩
    rw [sequence_eq_iff.mp hsequence]
    simp only [List.append_assoc, List.append_nil, List.cons_append, List.nil_append]
  · rintro ⟨nameCount, addressCount, length, stretch, rfl, hcount, haddresses, hlength, hform⟩
    refine ⟨r.client, _, _, ?_, rfl, nameCount, _, _, rfl, rfl, addressCount, _, _, rfl, rfl,
      length, _, _, rfl, rfl, r.names, stretch, _, rfl, ⟨hlength.symm, hcount.symm, hform⟩,
      r.addresses, _, [], rfl, ⟨haddresses.symm, sequence_eq_iff.mpr rfl⟩, rfl, rfl⟩
    simp only [List.append_assoc, List.append_nil, List.cons_append, List.nil_append]

end Record

/-! ## Counters -/

namespace Snapshot

/-- Reads the sampling rate if the version has one. -/
def readRate (v : Version) : Reader DecodeError (Option UInt32) :=
  if v.hasSampleRate then some <$> readCounter .sampleRate else pure none

theorem read_eq (v : Version) : read v = do
    let captured ← readCounter .captured
    let received ← readCounter .received
    let dropped ← readCounter .dropped
    let interfaceDropped ← readCounter .interfaceDropped
    let sampleRate ← readRate v
    return { captured, received, dropped, interfaceDropped, sampleRate } := by
  cases v <;> rfl

theorem accepts_readCounter (counter : SnapshotField) :
    (readCounter counter).Accepts (fun n bs => bs = Octets.ofUInt32 n) :=
  Reader.accepts_field Cursor.takes_u32? _

/-- The sampling rate is a fifth number in version 2 and nothing before it. -/
theorem accepts_readRate (v : Version) : (readRate v).Accepts fun rate bs =>
    bs = (rate.map Octets.ofUInt32).getD [] ∧ (rate.isSome ↔ v = .v2) := by
  cases v with
  | v2 =>
    refine (Reader.accepts_map (accepts_readCounter .sampleRate) some).congr
      fun rate bs => ⟨?_, ?_⟩
    · rintro ⟨n, rfl, rfl⟩
      exact ⟨rfl, by simp⟩
    · rintro ⟨hbs, hsome⟩
      obtain ⟨n, rfl⟩ := Option.isSome_iff_exists.mp (hsome.mpr rfl)
      exact ⟨n, rfl, hbs⟩
  | v0 | v1 =>
    refine (Reader.accepts_pure none).congr fun rate bs => ⟨?_, ?_⟩
    · rintro ⟨rfl, rfl⟩
      exact ⟨rfl, by simp⟩
    · rintro ⟨hbs, hsome⟩
      have hnone : rate = none := by simpa using hsome
      subst hnone
      exact ⟨rfl, hbs⟩

/-- **Counters are read as the grammar has them.** -/
theorem accepts_read (v : Version) : (read v).Accepts (Form v) := by
  rw [read_eq]
  refine (Reader.accepts_bind (accepts_readCounter .captured) fun captured =>
    Reader.accepts_bind (accepts_readCounter .received) fun received =>
    Reader.accepts_bind (accepts_readCounter .dropped) fun dropped =>
    Reader.accepts_bind (accepts_readCounter .interfaceDropped) fun interfaceDropped =>
    Reader.accepts_bind (accepts_readRate v) fun sampleRate =>
    Reader.accepts_pure
      (Snapshot.mk captured received dropped interfaceDropped sampleRate)).congr
    fun s bs => ⟨?_, ?_⟩
  · rintro ⟨_, _, _, rfl, rfl, _, _, _, rfl, rfl, _, _, _, rfl, rfl, _, _, _, rfl, rfl,
      _, _, _, rfl, ⟨rfl, hsome⟩, rfl, rfl⟩
    exact ⟨by simp only [List.append_assoc, List.append_nil], hsome⟩
  · rintro ⟨rfl, hsome⟩
    refine ⟨_, _, _, ?_, rfl, _, _, _, rfl, rfl, _, _, _, rfl, rfl, _, _, _, rfl, rfl,
      _, _, [], rfl, ⟨rfl, hsome⟩, rfl, rfl⟩
    simp only [List.append_assoc, List.append_nil]

end Snapshot

/-! ## Messages -/

namespace Header

/-- A header announces something if bit 0 of its flags is set or if there is
a record. -/
theorem announces_iff (f : Flags) (setCount : UInt8) :
    (f.isStats || setCount != 0) = true ↔ f.LowBit ∨ 0 < setCount.toNat := by
  rw [Bool.or_eq_true, Flags.isStats_iff_lowBit, bne_iff_ne, Nat.pos_iff_ne_zero, ne_eq, ne_eq,
    ← UInt8.toNat_inj]
  rfl

/-- **A header is read as the grammar has it.** -/
theorem accepts_read : read.Accepts Form := by
  rintro ⟨position, rest⟩ ⟨position', rest'⟩ h
  constructor
  · intro hok
    match rest, hok with
    | v :: n :: f₁ :: f₀ :: s₃ :: s₂ :: s₁ :: s₀ :: rest, hok =>
      simp only [read] at hok
      split at hok
      · next version hversion =>
        split at hok
        · next hannounces =>
          cases hok
          refine ⟨[v, n, f₁, f₀, s₃, s₂, s₁, s₀], ⟨?_, ?_⟩, rfl, rfl⟩
          · rw [Version.number_of_ofOctet? hversion, Octets.ofUInt16_uint16,
              Octets.ofUInt32_uint32]
            rfl
          · exact (announces_iff _ _).mp hannounces
        · exact nomatch hok
      · exact nomatch hok
  · rintro ⟨_, ⟨rfl, hannounces⟩, hrest, hposition⟩
    simp only at hrest hposition
    rw [hrest, hposition]
    show read ⟨position, h.version.number :: h.setCount :: _ :: _ :: _ :: _ :: _ :: _ :: rest'⟩ = _
    simp only [read, Version.ofOctet?_number, Octets.uint16_ofUInt16, Octets.uint32_ofUInt32]
    rw [if_pos ((announces_iff _ _).mpr hannounces)]
    rfl

end Header

namespace Message

/-- **Records are read as the grammar has them**, however many lie before
them. -/
theorem accepts_readRecords (v : Version) (index count : Nat) :
    (readRecords v index count).Accepts (Exactly count (Record.Form v)) := by
  induction count generalizing index with
  | zero => exact Reader.accepts_exactly_zero _
  | succ count ih =>
    exact Reader.accepts_exactly_succ (Record.accepts_read v index) (ih (index + 1))

/-- **The body is read that the header announces.** -/
theorem accepts_readBody (h : Header) : (readBody .full h).Accepts (Body.Form h) := by
  unfold readBody
  by_cases hbit : h.flags.LowBit
  · rw [if_pos (show h.isStats = true from (Flags.isStats_iff_lowBit _).mpr hbit)]
    refine (Reader.accepts_map (Snapshot.accepts_read h.version) Body.stats).congr
      fun body bs => ?_
    cases body with
    | stats s => simp [Body.Form, hbit]
    | records rs => simp [Body.Form, hbit]
  · rw [if_neg (show ¬ h.isStats = true from fun hs => hbit ((Flags.isStats_iff_lowBit _).mp hs))]
    refine (Reader.accepts_map (accepts_readRecords h.version 0 h.setCount.toNat)
      Body.records).congr fun body bs => ?_
    cases body with
    | stats s => simp [Body.Form, hbit]
    | records rs => simp [Body.Form, hbit]

/-- **A message is read as the grammar has it.** -/
theorem accepts_read : (read .full).Accepts Form := by
  refine (Reader.accepts_bind Header.accepts_read fun header =>
    Reader.accepts_bind (accepts_readBody header) fun body =>
    Reader.accepts_pure (Message.mk header body)).congr fun m bs => ⟨?_, ?_⟩
  · rintro ⟨header, hbs, _, rfl, hheader, body, bbs, _, rfl, hbody, rfl, rfl⟩
    exact ⟨hbs, bbs, by rw [List.append_nil], hheader, hbody⟩
  · rintro ⟨hbs, bbs, rfl, hheader, hbody⟩
    exact ⟨m.header, hbs, bbs, rfl, hheader, m.body, bbs, [], (List.append_nil _).symm, hbody,
      rfl, rfl⟩

/-- Decoding succeeds if reading does, wherever it ends. -/
theorem decode_eq_ok_iff_read {detail : Detail} {p : Octets} {m : Message} :
    decode detail p = .ok m ↔ ∃ after, read detail (Cursor.start p) = .ok m after := by
  unfold decode Reader.run EStateM.run
  cases read detail (Cursor.start p) with
  | ok m' after => simp
  | error e after => simp

/-- Decoding succeeds on octets that begin with the form of a message. -/
theorem decode_eq_ok_iff_form {p : Octets} {m : Message} :
    decode .full p = .ok m ↔ ∃ bs rest, p = bs ++ rest ∧ m.Form bs := by
  rw [decode_eq_ok_iff_read]
  constructor
  · rintro ⟨after, hread⟩
    obtain ⟨bs, hform, hp, -⟩ := (accepts_read _ _ _).mp hread
    exact ⟨bs, after.rest, hp, hform⟩
  · rintro ⟨bs, rest, hp, hform⟩
    exact ⟨⟨bs.length, rest⟩, (accepts_read _ _ _).mpr ⟨bs, hform, hp, (Nat.zero_add _).symm⟩⟩

/-- **Messages are read from exactly the octets of the grammar**: from those
that begin with the form of a header and go on with the form of the body that
it announces. -/
theorem decode_full_eq_ok_iff (p : Octets) (m : Message) :
    decode .full p = .ok m ↔
      ∃ header body rest, p = header ++ body ++ rest ∧
        m.header.Form header ∧ m.body.Form m.header body := by
  rw [decode_eq_ok_iff_read]
  constructor
  · rintro ⟨after, hread⟩
    obtain ⟨_, ⟨header, body, rfl, hheader, hbody⟩, hp, -⟩ := (accepts_read _ _ _).mp hread
    exact ⟨header, body, after.rest, hp, hheader, hbody⟩
  · rintro ⟨header, body, rest, hp, hheader, hbody⟩
    refine ⟨⟨(header ++ body).length, rest⟩, (accepts_read _ _ _).mpr ?_⟩
    exact ⟨header ++ body, ⟨header, body, rfl, hheader, hbody⟩, hp, (Nat.zero_add _).symm⟩

end Message

end FlowTelemetry

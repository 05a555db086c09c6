import FlowTelemetry.Proofs.Wire.Reading

/-!
# Names that break off

A stretch of octets may hold fewer names than are asked for. Where it breaks
off does not depend on how many that are: the stretch alone settles it, and the
count only decides whether reading gets as far. `NameList.BreaksOff` says of a
stretch which name is the first that is not complete and where octets are
missing, and `decode_eq_error_iff` that this is what reading reports of it.

Terminated names break off where the stretch ends, when all its pieces have
been used up. Labelled names break off at a place where the length of a label
is due: either the stretch ends there, or it has a length that is greater than
the number of octets after it.
-/

namespace FlowTelemetry

open WireForm

/-! ## A single name -/

namespace Name

/-- A label with its length in the octet before it. -/
def Label : WireForm Octets := fun label bs =>
  1 ≤ label.length ∧ label.length ≤ 255 ∧ bs = UInt8.ofNat label.length :: label

/-- **What is left of a label that is not complete**: not even its length, or
its length and then too few octets. The number is that of the octets after the
place where more were needed. -/
inductive Stump : Octets → Nat → Prop where
  | noLength : Stump [] 0
  | shortLabel {n : UInt8} {rest : Octets} :
      rest.length < n.toNat → Stump (n :: rest) rest.length

/-- **A name breaks off** after complete labels. -/
def BreaksOff (bs : Octets) (left : Nat) : Prop :=
  ∃ labels front stump, bs = front ++ stump ∧ Sequence Label labels front ∧ Stump stump left

theorem takeLabels_stump {bs : Octets} {left : Nat} (h : Stump bs left) :
    takeLabels bs = .error left := by
  cases h with
  | noLength => rw [takeLabels]
  | @shortLabel n rest hshort =>
    have hne : n ≠ 0 := by
      rintro rfl
      exact Nat.not_lt_zero _ hshort
    rw [takeLabels, if_neg hne]
    split
    · rfl
    · next label after hsplit =>
      cases (Octets.split?_eq_none_iff.mpr hshort).symm.trans hsplit

/-- A complete label before a name that breaks off makes no difference. -/
theorem takeLabels_label_append {label bs more : Octets} {left : Nat} (h : Label label bs)
    (hmore : takeLabels more = .error left) : takeLabels (bs ++ more) = .error left := by
  obtain ⟨hpos, hle, rfl⟩ := h
  have hsplit := split?_label hle more
  rw [List.cons_append, takeLabels, if_neg (labelLength_ne_zero hpos hle)]
  split
  · next hnone => cases hnone.symm.trans hsplit
  · next label' after hsome =>
    cases hsome.symm.trans hsplit
    simp only [hmore]

/-- **Labels are missing exactly if the name breaks off.** -/
theorem takeLabels_eq_error_iff {bs : Octets} {left : Nat} :
    takeLabels bs = .error left ↔ BreaksOff bs left := by
  constructor
  · intro h
    fun_induction takeLabels bs with
    | case1 =>
      cases h
      exact ⟨[], [], [], rfl, Sequence.nil, Stump.noLength⟩
    | case2 => cases h
    | case3 n rest hne hnone =>
      cases h
      exact ⟨[], [], n :: rest, rfl, Sequence.nil,
        Stump.shortLabel (Octets.split?_eq_none_iff.mp hnone)⟩
    | case4 => cases h
    | case5 n bs hne label after hsplit _ left' hleft ih =>
      cases h
      obtain ⟨labels, front, stump, rfl, hlabels, hstump⟩ := ih hleft
      obtain ⟨rfl, hpos, hle, rfl⟩ := label_of_split? hne hsplit
      exact ⟨label :: labels, (UInt8.ofNat label.length :: label) ++ front, stump, by simp,
        Sequence.cons ⟨hpos, hle, rfl⟩ hlabels, hstump⟩
  · rintro ⟨labels, front, stump, rfl, hlabels, hstump⟩
    induction hlabels with
    | nil => exact takeLabels_stump hstump
    | cons hlabel _ ih =>
      rw [List.append_assoc]
      exact takeLabels_label_append hlabel ih

end Name

/-! ## Lists of names -/

namespace NameList

/-- Terminated names break off when there are no more pieces. -/
def BreaksOffTerminated (bs : Octets) (e : NameListError) : Prop :=
  e = ⟨(bs.splitOn 0).length, bs.length⟩

/-- Labelled names break off within a name that follows complete names. -/
def BreaksOffLabelled (bs : Octets) (e : NameListError) : Prop :=
  ∃ names encoded broken left, bs = encoded ++ broken ∧ Sequence Name.Labelled names encoded ∧
    Name.BreaksOff broken left ∧ e = ⟨names.length, bs.length - left⟩

/-- **A list of names breaks off**: which name is the first that is not
complete, and the offset at which more octets are needed for it. -/
def BreaksOff : Version → Octets → NameListError → Prop
  | .v0 => BreaksOffTerminated
  | .v1 => BreaksOffLabelled
  | .v2 => BreaksOffLabelled

theorem decodeTerminated_eq_error_iff {count : Nat} {bs : Octets} {e : NameListError} :
    decodeTerminated count bs = .error e ↔ BreaksOffTerminated bs e ∧ e.name < count := by
  rw [decodeTerminated_eq]
  unfold BreaksOffTerminated
  by_cases h : count ≤ (bs.splitOn 0).length
  · rw [if_pos h]
    constructor
    · exact fun hok => nomatch hok
    · rintro ⟨rfl, hlt⟩
      exact absurd h (Nat.not_le.mpr hlt)
  · rw [if_neg h, Except.error.injEq]
    constructor
    · rintro rfl
      exact ⟨rfl, Nat.lt_of_not_le h⟩
    · rintro ⟨rfl, -⟩
      rfl

/-- The names before the one that breaks off are read, however long the whole
list is and however many names came before. -/
theorem takeLabelled_eq_error_iff {size index count : Nat} {bs : Octets} {e : NameListError} :
    takeLabelled size index count bs = .error e ↔
      ∃ names encoded broken left, bs = encoded ++ broken ∧
        Sequence Name.Labelled names encoded ∧ Name.BreaksOff broken left ∧
        e = ⟨index + names.length, size - left⟩ ∧ names.length < count := by
  induction count generalizing index bs with
  | zero =>
    unfold takeLabelled
    constructor
    · intro h
      cases h
    · rintro ⟨names, _, _, _, _, _, _, _, hlt⟩
      exact absurd hlt (Nat.not_lt_zero _)
  | succ count ih =>
    unfold takeLabelled
    constructor
    · intro h
      cases htake : Name.takeLabels bs with
      | error left =>
        rw [htake] at h
        cases h
        exact ⟨[], [], bs, left, rfl, Sequence.nil, Name.takeLabels_eq_error_iff.mp htake, rfl,
          Nat.succ_pos count⟩
      | ok taken =>
        obtain ⟨labels, after⟩ := taken
        rw [htake] at h
        dsimp only at h
        cases hmore : takeLabelled size (index + 1) count after with
        | ok more => rw [hmore] at h; cases h
        | error e' =>
          rw [hmore] at h
          cases h
          obtain ⟨names, encoded, broken, left, rfl, hnames, hbroken, rfl, hlt⟩ := ih.mp hmore
          obtain ⟨run, rfl, hrun⟩ := Name.takeLabels_eq_ok_iff.mp htake
          refine ⟨Name.ofLabels labels :: names, run ++ encoded, broken, left,
            (List.append_assoc _ _ _).symm, Sequence.cons ⟨labels, hrun, rfl⟩ hnames, hbroken,
            ?_, Nat.succ_lt_succ hlt⟩
          rw [List.length_cons, Nat.add_right_comm, Nat.add_assoc index]
    · rintro ⟨names, encoded, broken, left, rfl, hnames, hbroken, rfl, hlt⟩
      cases hnames with
      | nil => rw [List.nil_append, Name.takeLabels_eq_error_iff.mpr hbroken]; rfl
      | @cons name names run encoded hname hnames =>
        obtain ⟨labels, hrun, rfl⟩ := hname
        have hindex : index + (names.length + 1) = index + 1 + names.length := by
          rw [Nat.add_assoc, Nat.add_comm 1]
        have hmore := (@ih (index + 1) (encoded ++ broken)).mpr
          ⟨names, encoded, broken, left, rfl, hnames, hbroken, by rw [List.length_cons, hindex],
            Nat.lt_of_succ_lt_succ hlt⟩
        rw [List.append_assoc, Name.takeLabels_append hrun]
        simp only [hmore]
        rfl

/-- **Names cannot be read exactly if the list breaks off before there are
enough of them**, and where it does is what is reported. -/
theorem decode_eq_error_iff {v : Version} {count : Nat} {bs : Octets} {e : NameListError} :
    decode v count bs = .error e ↔ BreaksOff v bs e ∧ e.name < count := by
  have hlabelled : takeLabelled bs.length 0 count bs = .error e ↔
      BreaksOffLabelled bs e ∧ e.name < count := by
    rw [takeLabelled_eq_error_iff]
    constructor
    · rintro ⟨names, encoded, broken, left, hbs, hnames, hbroken, rfl, hlt⟩
      rw [Nat.zero_add]
      exact ⟨⟨names, encoded, broken, left, hbs, hnames, hbroken, rfl⟩, hlt⟩
    · rintro ⟨⟨names, encoded, broken, left, hbs, hnames, hbroken, rfl⟩, hlt⟩
      exact ⟨names, encoded, broken, left, hbs, hnames, hbroken, by rw [Nat.zero_add], hlt⟩
  cases v with
  | v0 => exact decodeTerminated_eq_error_iff
  | v1 => exact hlabelled
  | v2 => exact hlabelled

/-! ## What it means to break off -/

/-- A length is due after octets that are complete names and then complete
labels. -/
def LengthDue (names : List String) (before : Octets) : Prop :=
  ∃ labels encoded front, before = encoded ++ front ∧ Sequence Name.Labelled names encoded ∧
    Sequence Name.Label labels front

/-- **A stretch of names ends within a name at an offset.** The offset lies
within the stretch. All names before that one can be read, from the octets
before the offset already, and no others can. Terminated names end with the
stretch. So do labelled names, unless the octet before the offset is the length
of a label that is longer than what is left of the stretch. -/
structure EndsWithin (v : Version) (stretch : Octets) (name offset : Nat) : Prop where
  offset_le : offset ≤ stretch.length
  decode_iff : ∀ count, (∃ names, decode v count stretch = .ok names) ↔ count ≤ name
  decode_before : ∃ names, decode v name (stretch.take offset) = .ok names
  terminated : v.hasLabels = false → offset = stretch.length
  labelled : v.hasLabels = true → offset = stretch.length ∨
    ∃ names before n rest, stretch = before ++ n :: rest ∧ names.length = name ∧
      LengthDue names before ∧ offset = (before ++ [n]).length ∧ rest.length < n.toNat

section BreaksOff

variable {v : Version} {bs : Octets} {e : NameListError}

/-- A list of names breaks off in one place. -/
theorem BreaksOff.unique {e' : NameListError} (h : BreaksOff v bs e) (h' : BreaksOff v bs e') :
    e = e' := by
  have hlt : e.name < e.name + e'.name + 1 := by omega
  have hlt' : e'.name < e.name + e'.name + 1 := by omega
  exact Except.error.inj
    ((decode_eq_error_iff.mpr ⟨h, hlt⟩).symm.trans (decode_eq_error_iff.mpr ⟨h', hlt'⟩))

/-- **As many names can be read as lie before the one that breaks off**, and no
more. -/
theorem BreaksOff.decode_iff (h : BreaksOff v bs e) (count : Nat) :
    (∃ names, decode v count bs = .ok names) ↔ count ≤ e.name := by
  rw [← Nat.not_lt]
  constructor
  · rintro ⟨names, hok⟩ hlt
    exact nomatch hok.symm.trans (decode_eq_error_iff.mpr ⟨h, hlt⟩)
  · intro hle
    cases hdecode : decode v count bs with
    | ok names => exact ⟨names, rfl⟩
    | error e' =>
      obtain ⟨h', hlt⟩ := decode_eq_error_iff.mp hdecode
      exact absurd (h.unique h' ▸ hlt) hle

/-- The names before the one that breaks off are complete where octets are
missing. -/
theorem LengthDue.labelled_append {names : List String} {before : Octets}
    (h : LengthDue names before) (more : Octets) : Labelled names (before ++ more) := by
  obtain ⟨labels, encoded, front, rfl, hnames, -⟩ := h
  exact ⟨encoded, front ++ more, List.append_assoc _ _ _, hnames⟩

/-- **Labelled names break off where a length is due**: there is none, or it is
greater than the number of octets after it. -/
theorem BreaksOffLabelled.cases (h : BreaksOffLabelled bs e) :
    ∃ names, names.length = e.name ∧
      (LengthDue names bs ∧ e.offset = bs.length ∨
        ∃ before n rest, bs = before ++ n :: rest ∧ LengthDue names before ∧
          e.offset = (before ++ [n]).length ∧ rest.length < n.toNat) := by
  obtain ⟨names, encoded, _, left, rfl, hnames, ⟨labels, front, stump, rfl, hlabels, hstump⟩,
    rfl⟩ := h
  refine ⟨names, rfl, ?_⟩
  cases hstump with
  | noLength =>
    rw [List.append_nil]
    exact Or.inl ⟨⟨labels, encoded, front, rfl, hnames, hlabels⟩, Nat.sub_zero _⟩
  | @shortLabel n rest hshort =>
    refine Or.inr ⟨encoded ++ front, n, rest, (List.append_assoc _ _ _).symm,
      ⟨labels, encoded, front, rfl, hnames, hlabels⟩, ?_, hshort⟩
    simp only [List.length_append, List.length_cons, List.length_nil]
    omega

/-- If a list breaks off at the end of the stretch, there is nothing more to
say about the place. -/
theorem BreaksOff.endsWithin_of_length (h : BreaksOff v bs e) (hoffset : e.offset = bs.length) :
    EndsWithin v bs e.name e.offset where
  offset_le := Nat.le_of_eq hoffset
  decode_iff := h.decode_iff
  decode_before := by
    rw [hoffset, List.take_length]
    exact (h.decode_iff _).mpr (Nat.le_refl _)
  terminated _ := hoffset
  labelled _ := Or.inl hoffset

/-- **A list that breaks off ends within a name there.** -/
theorem BreaksOff.endsWithin (h : BreaksOff v bs e) : EndsWithin v bs e.name e.offset := by
  by_cases hv : v.hasLabels = true
  · have hlabelled : BreaksOffLabelled bs e ∧ Form v = Labelled := by
      cases v with
      | v0 => exact nomatch hv
      | v1 => exact ⟨h, rfl⟩
      | v2 => exact ⟨h, rfl⟩
    obtain ⟨names, hcount, ⟨-, hoffset⟩ | ⟨before, n, rest, hbs, hdue, hoffset, hshort⟩⟩ :=
      hlabelled.1.cases
    · exact h.endsWithin_of_length hoffset
    · have hcut : bs = (before ++ [n]) ++ rest := by rw [hbs, List.append_cons]
      refine ⟨?_, h.decode_iff, ⟨names, ?_⟩, fun hv' => ?_, fun _ =>
        Or.inr ⟨names, before, n, rest, hbs, hcount, hdue, hoffset, hshort⟩⟩
      · rw [hoffset, hcut]
        exact (List.prefix_append (before ++ [n]) rest).length_le
      · rw [hoffset, hcut, List.take_left, decode_eq_ok_iff, hlabelled.2]
        exact ⟨hcount, hdue.labelled_append [n]⟩
      · exact nomatch hv.symm.trans hv'
  · have hoffset : e.offset = bs.length := by
      cases v with
      | v0 => rw [show e = _ from h]
      | v1 => exact absurd rfl hv
      | v2 => exact absurd rfl hv
    exact h.endsWithin_of_length hoffset

/-- **Names that cannot be read end within a name** where the error says. -/
theorem endsWithin_of_decode {count : Nat} (h : decode v count bs = .error e) :
    EndsWithin v bs e.name e.offset :=
  (decode_eq_error_iff.mp h).1.endsWithin

end BreaksOff

end NameList

end FlowTelemetry

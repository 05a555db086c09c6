import FlowTelemetry.Proofs.Wire.RoundTrip
import Mathlib.Algebra.Ring.Nat

/-!
# Which records can be written

A record can fail to be written for three reasons, and they are looked at in a
fixed order. Too many names or addresses are noticed before anything is
written. Then come the names: one that has no form in the version makes the
record fail however long the others are, although their length would have been
too much. The length comes last, because only when all names have been written
is it known.

The length is that of the names with their padding, and this moves the boundary.
A length field could hold 65535, but the padding rounds up to whole words, so
names of 65533 octets are already too long.

How long a name gets is a matter of its labels, each of which costs one octet
more than it has; but all dots but the one at the end are gone, so that a name
of any number of labels gets two octets longer (`Name.sum_length_encode_pieces`).
`Effect.Decided` says of an effect on what its success hinges and how many
octets it adds then, and is put together in the same way as effects are.
-/

namespace FlowTelemetry

/-! ## Effects that hinge on a condition -/

/-- **An effect is decided by a condition**: it adds a known number of octets if
the condition holds, and fails with a known error if it does not. -/
structure Effect.Decided (x : Effect) (possible : Prop) (size : Nat) (e : EncodeError) : Prop where
  succeeds : possible → x.failure = none ∧ x.added.length = size
  fails : ¬ possible → x.failure = some e

namespace Effect.Decided

variable {x : Effect} {possible : Prop} {size : Nat} {e : EncodeError}

/-- A failure or octets. -/
theorem of_ite {excluded : Prop} [Decidable excluded] {bs : Octets} :
    (if excluded then fail e else add bs).Decided (¬ excluded) bs.length e := by
  split
  · next h => exact ⟨fun hn => absurd h hn, fun _ => rfl⟩
  · next h => exact ⟨fun _ => ⟨rfl, rfl⟩, fun hn => absurd h hn⟩

/-- The condition and the number may be put in other words. -/
theorem congr (h : x.Decided possible size e) {possible' : Prop} {size' : Nat}
    (hpossible : possible' ↔ possible) (hsize : possible → size' = size) :
    x.Decided possible' size' e where
  succeeds hp := by
    obtain ⟨hfailure, hlength⟩ := h.succeeds (hpossible.mp hp)
    exact ⟨hfailure, hlength.trans (hsize (hpossible.mp hp)).symm⟩
  fails hn := h.fails (mt hpossible.mpr hn)

/-- Octets are added in any case. -/
theorem of_add (bs : Octets) : (add bs).Decided True bs.length e where
  succeeds _ := ⟨rfl, rfl⟩
  fails hn := absurd trivial hn

/-- **One effect and then another** succeed if both do. -/
theorem seq {y : Effect} {possible' : Prop} {size' : Nat} (h : x.Decided possible size e)
    (h' : y.Decided possible' size' e) :
    (x.seq y).Decided (possible ∧ possible') (size + size') e where
  succeeds := by
    rintro ⟨hp, hp'⟩
    obtain ⟨hfailure, hlength⟩ := h.succeeds hp
    obtain ⟨hfailure', hlength'⟩ := h'.succeeds hp'
    rw [eq_add_of_failure hfailure, eq_add_of_failure hfailure', add_seq_add, ← hlength, ← hlength']
    exact ⟨rfl, List.length_append⟩
  fails hn := by
    unfold Effect.seq
    by_cases hp : possible
    · rw [(h.succeeds hp).1]
      exact h'.fails fun hp' => hn ⟨hp, hp'⟩
    · rw [h.fails hp]
      exact h.fails hp

/-- Octets behind an effect are added if it succeeds. -/
theorem seq_add (h : x.Decided possible size e) (bs : Octets) :
    (x.seq (add bs)).Decided possible (size + bs.length) e :=
  (h.seq (of_add bs)).congr (and_iff_left trivial).symm fun _ => rfl

/-- With padding there are whole words. -/
theorem padded (h : x.Decided possible size e) :
    x.padded.Decided possible (4 * ((size + 3) / 4)) e where
  succeeds hp := by
    obtain ⟨hfailure, hlength⟩ := ((h.seq_add (Octets.wordPadding x.added.length)).succeeds hp)
    refine ⟨hfailure, hlength.trans ?_⟩
    rw [(h.succeeds hp).2, Octets.wordPadding, List.length_replicate]
    omega
  fails hn := (h.seq_add _).fails hn

/-- **A list of effects** succeeds if all of them do, and adds what they add. -/
theorem all_of_mem {α : Type} {effect : α → Effect} {possible : α → Prop} {size : α → Nat}
    {e : EncodeError} {as : List α} (h : ∀ a ∈ as, (effect a).Decided (possible a) (size a) e) :
    (Effect.all (as.map effect)).Decided (∀ a ∈ as, possible a) (as.map size).sum e := by
  induction as with
  | nil => exact (of_add []).congr (iff_true_intro fun _ hmem => nomatch hmem) fun _ => rfl
  | cons a as ih =>
    rw [List.forall_mem_cons] at h ⊢
    exact h.1.seq (ih h.2)

theorem all {α : Type} {effect : α → Effect} {possible : α → Prop} {size : α → Nat}
    {e : EncodeError} (h : ∀ a, (effect a).Decided (possible a) (size a) e) (as : List α) :
    (Effect.all (as.map effect)).Decided (∀ a ∈ as, possible a) (as.map size).sum e :=
  all_of_mem fun a _ => h a

end Effect.Decided

/-! ## Names -/

namespace Name

/-- Whether a label may be written. -/
def WritableLabel (label : List Char) : Prop :=
  1 ≤ (Utf8.encode label).length ∧ (Utf8.encode label).length ≤ maxLabelLength

/-- **Whether a name has a form** in a version. A terminated name must not have
a NUL in it. A labelled name is cut at its dots, one dot at its end not counted,
and is either empty or made of labels that may be written. -/
def Writable : Version → String → Prop
  | .v0, name => Char.ofNat 0 ∉ name.toList
  | .v1, name | .v2, name =>
    withoutFinalDot name.toList = [] ∨
      ∀ label ∈ (withoutFinalDot name.toList).splitOn '.', WritableLabel label

/-- **How many octets a name takes up** in a version that it has a form in. -/
def size : Version → String → Nat
  | .v0, name => (Utf8.octets name).length + 1
  | .v1, name | .v2, name =>
    if withoutFinalDot name.toList = [] then 1
    else (Utf8.encode (withoutFinalDot name.toList)).length + 2

theorem terminatedEffect_decided (name : String) :
    (terminatedEffect name).Decided (Writable .v0 name) (size .v0 name) .invalidName := by
  refine Effect.Decided.of_ite.congr ?_ fun _ => ?_
  · rw [List.contains_iff_mem]
    rfl
  · rw [List.length_append]
    rfl

theorem labelEffect_decided (label : List Char) :
    (labelEffect label).Decided (WritableLabel label) ((Utf8.encode label).length + 1)
      .invalidName := by
  refine Effect.Decided.of_ite.congr ?_ fun _ => rfl
  unfold WritableLabel
  rw [Bool.or_eq_true, List.isEmpty_iff_length_eq_zero, decide_eq_true_eq]
  omega

/-- **Labels take up what the text takes up and one octet more**: each has a
length before it, and each but the first had a dot before it. -/
theorem sum_length_encode_pieces (cs : List Char) :
    ((pieces '.' cs).map fun label => (Utf8.encode label).length + 1).sum
      = (Utf8.encode cs).length + 1 := by
  have hone : (Utf8.encodeChar '.').length = 1 := rfl
  simpa only [Utf8.encode, List.length_flatMap, hone] using
    sum_map_pieces (fun c => (Utf8.encodeChar c).length) '.' cs

/-- The labels of a name are what lies between its dots, one dot at its end not
counted, but the empty name has none. -/
theorem labels_eq (name : String) :
    labels name = if withoutFinalDot name.toList = [] then []
      else (withoutFinalDot name.toList).splitOn '.' := by
  unfold labels
  split
  · next hnil => rw [if_pos hnil]
  · next hne => rw [if_neg hne, pieces_eq_splitOn]

/-- **A labelled name** has a length for each label and one more for the root. -/
theorem labelledEffect_decided (name : String) :
    (labelledEffect name).Decided (Writable .v1 name) (size .v1 name) .invalidName := by
  refine ((Effect.Decided.all labelEffect_decided (labels name)).seq_add [0]).congr ?_ fun _ => ?_
  · show withoutFinalDot name.toList = [] ∨ _ ↔ _
    rw [labels_eq]
    by_cases hnil : withoutFinalDot name.toList = []
    · rw [if_pos hnil]
      exact iff_of_true (Or.inl hnil) (fun _ hmem => nomatch hmem)
    · rw [if_neg hnil]
      exact or_iff_right hnil
  · show (if withoutFinalDot name.toList = [] then 1 else _) = _
    rw [labels_eq]
    by_cases hnil : withoutFinalDot name.toList = []
    · rw [if_pos hnil, if_pos hnil]
      rfl
    · rw [if_neg hnil, if_neg hnil, ← pieces_eq_splitOn, sum_length_encode_pieces]
      rfl

theorem effect_decided (v : Version) (name : String) :
    (effect v name).Decided (Writable v name) (size v name) .invalidName := by
  cases v with
  | v0 => exact terminatedEffect_decided name
  | v1 | v2 => exact labelledEffect_decided name

end Name

/-! ## Records -/

namespace Record

/-- **Names and their padding** are decided by each of the names. -/
theorem namesEffect_decided (v : Version) (names : List String) :
    (NameList.effect v names).padded.Decided (∀ name ∈ names, Name.Writable v name)
      (4 * (((names.map (Name.size v)).sum + 3) / 4)) .invalidName :=
  (Effect.Decided.all (Name.effect_decided v) names).padded

/-- What addresses take up. -/
theorem length_addresses (addresses : List Address) :
    (addresses.flatMap Address.octets).length = 4 * addresses.length := by
  induction addresses with
  | nil => rfl
  | cons x xs ih =>
    rw [List.flatMap_cons, List.length_append, ih, List.length_cons, Nat.mul_succ, Nat.add_comm]
    rfl

/-- Too many names or addresses are noticed first. -/
theorem effect_of_tooMany (v : Version) {r : Record}
    (h : 255 < r.names.length ∨ 255 < r.addresses.length) : effect v r = .fail .longData := by
  unfold effect
  rw [if_pos]
  rwa [Bool.or_eq_true, decide_eq_true_eq, decide_eq_true_eq]

/-- With no more of them than there may be, all depends on the names. -/
theorem effect_of_counts (v : Version) {r : Record}
    (h : ¬ (255 < r.names.length ∨ 255 < r.addresses.length)) :
    effect v r = (Effect.add r.front).seq ((NameList.effect v r.names).padded.lengthPrefixed.seq
      (.add (r.addresses.flatMap Address.octets))) := by
  unfold effect
  rw [if_neg]
  rwa [Bool.or_eq_true, decide_eq_true_eq, decide_eq_true_eq]

/-- A record fails as its names do. -/
theorem failure_effect (v : Version) {r : Record} {e : EncodeError}
    (h : ¬ (255 < r.names.length ∨ 255 < r.addresses.length))
    (hnames : (NameList.effect v r.names).padded.lengthPrefixed = .fail e) :
    (effect v r).failure = some e := by
  rw [effect_of_counts v h, hnames]
  rfl

/-- A record is written if its names are no longer than their length can say. -/
theorem effect_eq_add (v : Version) {r : Record} {names : Octets}
    (h : ¬ (255 < r.names.length ∨ 255 < r.addresses.length))
    (hnames : (NameList.effect v r.names).padded = .add names)
    (hfits : names.length ≤ Writer.maxFieldLength) :
    effect v r = .add (r.front ++ (Octets.ofUInt16 (UInt16.ofNat names.length) ++ names
      ++ r.addresses.flatMap Address.octets)) := by
  rw [effect_of_counts v h,
    Effect.lengthPrefixed_eq_add_iff.mpr ⟨names, hnames, hfits, rfl⟩]
  rfl

/-- **Whether a record can be written** depends on the number of its names and
addresses, then on each of its names, and then on the octets that the names take
up, which may not be more than 65532. Without any of these obstacles it is
written with eight octets and four for each address, and the names take up as
many whole words as they need, which is the number that stands before them. -/
theorem write_decided (v : Version) (r : Record) (octets : Array UInt8) :
    let b : Buffer := ⟨octets, none⟩
    let tooMany := 255 < r.names.length ∨ 255 < r.addresses.length
    let writable := ∀ name ∈ r.names, Name.Writable v name
    let n := (r.names.map (Name.size v)).sum
    let words := (n + 3) / 4
    (tooMany → r.write v b = .error .longData b) ∧
      (¬ tooMany → ¬ writable → ∃ after, r.write v b = .error .invalidName after) ∧
      (¬ tooMany → writable → 65532 < n → ∃ after, r.write v b = .error .longData after) ∧
      (¬ tooMany → writable → n ≤ 65532 → ∃ bs, r.write v b = .ok () (b.extend bs) ∧
        bs.length = 8 + 4 * words + 4 * r.addresses.length ∧
        ∃ length : UInt16, (bs.drop 6).take 2 = Octets.ofUInt16 length ∧
          length.toNat = 4 * words) := by
  intro b tooMany writable n words
  have hwrite : r.write v b = (effect v r).on b := (realises_write v r).performs b rfl
  have hfails : ∀ {e}, (effect v r).failure = some e → ∃ after, r.write v b = .error e after :=
    fun he => ⟨_, hwrite.trans (Effect.on_eq_error_iff.mpr ⟨he, rfl⟩)⟩
  have hnames := namesEffect_decided v r.names
  refine ⟨fun hcounts => ?_, fun hcounts hnot => ?_, fun hcounts hall hlong => ?_,
    fun hcounts hall hshort => ?_⟩
  · rw [hwrite, effect_of_tooMany v hcounts]
    exact congrArg _ (Buffer.extend_nil b)
  · exact hfails (failure_effect v hcounts (Effect.lengthPrefixed_of_failure (hnames.fails hnot)))
  · obtain ⟨hfailure, hlength⟩ := hnames.succeeds hall
    refine hfails (failure_effect v hcounts ?_)
    refine Effect.lengthPrefixed_of_lt hfailure ?_
    rw [hlength]
    show 65535 < 4 * ((n + 3) / 4)
    omega
  · obtain ⟨hfailure, hlength⟩ := hnames.succeeds hall
    have hfits : (NameList.effect v r.names).padded.added.length ≤ Writer.maxFieldLength := by
      rw [hlength]
      show 4 * ((n + 3) / 4) ≤ 65535
      omega
    have heffect := effect_eq_add v hcounts (Effect.eq_add_of_failure hfailure) hfits
    rw [heffect] at hwrite
    refine ⟨_, hwrite, ?_, UInt16.ofNat (NameList.effect v r.names).padded.added.length, rfl, ?_⟩
    · rw [Effect.added_add, List.length_append, List.length_append, List.length_append,
        length_addresses, hlength]
      show 6 + (2 + 4 * words + 4 * r.addresses.length) = _
      omega
    · rw [← hlength]
      exact UInt16.toNat_ofNat_of_lt' (Nat.lt_succ_of_le hfits)

end Record

end FlowTelemetry

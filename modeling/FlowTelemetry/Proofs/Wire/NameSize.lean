import FlowTelemetry.Proofs.Wire.HeaderOnly
import FlowTelemetry.Proofs.Wire.Rewriting
import Mathlib.Data.List.Flatten

/-!
# How much the names of a message take up

The octets of names are not what their texts take up. An octet that is not UTF-8
is read as a character of three octets, and there is a dot between two labels. Who
sends a message also says how many names, labels and records are in it. None of
this lets a text get out of hand: it takes up at most three times the octets that
it was read from, whatever the counts are.

The account is the same everywhere. What is read as one part has octets of its
own, and it is these that pay for it: the octets of a label for its characters, the
length before it for the dot, the eight octets in front of a record for the record.
Parts lie one behind the other, so what holds of each holds of all
(`WireForm.Sequence.sum_map_le`).
-/

namespace FlowTelemetry

open WireForm

/-- **What holds of each part holds of all**: if no part measures more than a
multiple of its octets, then neither do several of them. -/
theorem WireForm.Sequence.sum_map_le {α : Type} {F : WireForm α} {as : List α} {bs : Octets}
    {measure : α → Nat} {factor : Nat} (h : Sequence F as bs)
    (hF : ∀ a part, F a part → measure a ≤ factor * part.length) :
    (as.map measure).sum ≤ factor * bs.length := by
  induction h with
  | nil => exact Nat.zero_le _
  | @cons a as part more ha _ ih =>
    rw [List.map_cons, List.sum_cons, List.length_append, Nat.mul_add]
    exact Nat.add_le_add (hF a part ha) ih

namespace NameList

/-- How many octets the texts of names take up. -/
def textSize (names : List String) : Nat := (names.map fun name => (Utf8.octets name).length).sum

theorem textSize_cons (name : String) (names : List String) :
    textSize (name :: names) = (Utf8.octets name).length + textSize names :=
  List.sum_cons

theorem textSize_flatMap (rs : List Record) :
    textSize (rs.flatMap Record.names) = (rs.map fun r => textSize r.names).sum := by
  induction rs with
  | nil => rfl
  | cons r rs ih =>
    have happend : ∀ xs ys, textSize (xs ++ ys) = textSize xs + textSize ys := fun _ _ => by
      unfold textSize
      rw [List.map_append, List.sum_append_nat]
    rw [List.flatMap_cons, happend, ih, List.map_cons, List.sum_cons]

end NameList

/-! ## One name -/

/-- Labels with dots between them take up what the labels do, and not more than one
octet for each label beside that. -/
theorem Utf8.length_encode_intercalate_le (labels : List (List Char)) :
    (encode (['.'].intercalate labels)).length ≤
      (labels.map fun label => (encode label).length + 1).sum := by
  induction labels with
  | nil => exact Nat.le_refl 0
  | cons label labels ih =>
    cases labels with
    | nil =>
      rw [List.intercalate_singleton, List.map_singleton, List.sum_singleton]
      exact Nat.le_succ _
    | cons next labels =>
      have happend : ∀ xs ys : List Char, encode (xs ++ ys) = encode xs ++ encode ys :=
        fun _ _ => List.flatMap_append
      have hdot : (encode ['.']).length = 1 := rfl
      rw [List.intercalate_cons_cons, happend, happend, List.length_append, List.length_append,
        hdot, List.map_cons, List.sum_cons]
      exact Nat.add_le_add_left ih _

namespace Name

/-- The labels of a run pay for themselves, and their lengths for the dots. -/
theorem Run.sum_labels_le {labels : List Octets} {run : Octets} (h : Run labels run) :
    ((labels.map Utf8.decode).map fun label => (Utf8.encode label).length + 1).sum ≤
      3 * run.length := by
  induction h with
  | root => exact Nat.zero_le _
  | @label label labels run _ _ _ ih =>
    have hlabel := Utf8.length_encode_decode_le label
    rw [List.map_cons, List.map_cons, List.sum_cons, List.length_cons, List.length_append]
    omega

/-- **A labelled name** takes up at most three times its octets. -/
theorem Labelled.length_octets_le {name : String} {bs : Octets} (h : Labelled name bs) :
    (Utf8.octets name).length ≤ 3 * bs.length := by
  obtain ⟨labels, hrun, rfl⟩ := h
  unfold Utf8.octets ofLabels
  rw [String.toList_ofList]
  exact Nat.le_trans (Utf8.length_encode_intercalate_le _) hrun.sum_labels_le

end Name

/-! ## The names of a record -/

namespace NameList

variable {v : Version} {names : List String} {bs : Octets}

/-- Names that are read from stretches are paid for by these. -/
theorem textSize_map_text_le (stretches : List Octets) :
    textSize (stretches.map Utf8.text) ≤ 3 * stretches.flatten.length := by
  induction stretches with
  | nil => exact Nat.zero_le _
  | cons stretch stretches ih =>
    have htext : (Utf8.octets (Utf8.text stretch)).length ≤ 3 * stretch.length := by
      unfold Utf8.octets Utf8.text
      rw [String.toList_ofList]
      exact Utf8.length_encode_decode_le stretch
    rw [List.map_cons, textSize_cons, List.flatten_cons, List.length_append, Nat.mul_add]
    exact Nat.add_le_add htext ih

/-- **Terminated names** lie between the NULs of their octets. -/
theorem Terminated.textSize_le (h : Terminated names bs) : textSize names ≤ 3 * bs.length := by
  obtain ⟨-, hnames⟩ := h
  have hsublist : ((bs.splitOn 0).take names.length).flatten.Sublist bs := by
    rw [← pieces_eq_splitOn]
    exact (List.take_sublist _ _).flatten.trans (sublist_flatten_pieces 0 bs)
  rw [hnames]
  exact Nat.le_trans (textSize_map_text_le _) (Nat.mul_le_mul_left 3 hsublist.length_le)

/-- **Labelled names** lie one behind the other. -/
theorem Labelled.textSize_le (h : Labelled names bs) : textSize names ≤ 3 * bs.length := by
  obtain ⟨encoded, padding, rfl, hsequence⟩ := h
  have hle := hsequence.sum_map_le fun _ _ => Name.Labelled.length_octets_le
  rw [List.length_append]
  exact Nat.le_trans hle (Nat.mul_le_mul_left 3 (Nat.le_add_right _ _))

/-- **The names in a stretch** take up at most three times the stretch. -/
theorem Form.textSize_le (h : Form v names bs) : textSize names ≤ 3 * bs.length := by
  by_cases hv : v = .v0
  · subst hv
    exact Terminated.textSize_le h
  · rw [form_of_ne hv] at h
    exact h.textSize_le

end NameList

/-! ## The records of a message -/

namespace Record

variable {v : Version} {r : Record} {bs : Octets}

/-- The names of a record are paid for by the stretch with the names alone. -/
theorem Form.textSize_le (h : Form v r bs) : NameList.textSize r.names ≤ 3 * bs.length := by
  obtain ⟨nameCount, addressCount, length, stretch, rfl, -, -, -, hnames⟩ := h
  have hle := hnames.textSize_le
  simp only [List.length_append]
  omega

/-- The record itself is paid for by what lies before the names. -/
theorem Form.fixedLength_le (h : Form v r bs) : fixedLength ≤ bs.length := by
  obtain ⟨nameCount, addressCount, length, stretch, rfl, -, -, -, -⟩ := h
  simp only [List.length_append, Octets.length_ofUInt16, Address.octets, List.length_cons,
    List.length_nil, fixedLength]
  omega

end Record

namespace Message

/-- **The records of a message** take up at most three times the octets behind its
header with their names, and there is one for eight octets at most. -/
theorem recordList_le {p : Octets} {m : Message} (h : decode .full p = .ok m) :
    NameList.textSize (m.body.recordList.flatMap Record.names) ≤ 3 * p.length ∧
      m.body.recordList.length * 8 ≤ p.length := by
  cases hbody : m.body with
  | stats s => exact ⟨Nat.zero_le _, Nat.zero_le _⟩
  | records rs =>
    obtain ⟨records, rest, hp, hrecords⟩ := exists_sequence_of_decode h hbody
    have hlength : records.length ≤ p.length := by
      rw [hp, List.length_append, List.length_append]
      omega
    have hnames := hrecords.sum_map_le fun _ _ => Record.Form.textSize_le
    have hcount : (rs.map fun _ => 8).sum ≤ 1 * records.length :=
      hrecords.sum_map_le fun _ part hr => (Nat.one_mul part.length).symm ▸ hr.fixedLength_le
    rw [List.map_const', List.sum_replicate_nat, Nat.one_mul] at hcount
    refine ⟨?_, Nat.le_trans hcount hlength⟩
    show NameList.textSize (rs.flatMap Record.names) ≤ 3 * p.length
    rw [NameList.textSize_flatMap]
    exact Nat.le_trans hnames (Nat.mul_le_mul_left 3 hlength)

/-- **Names cannot be made to take up more than three times their octets**, be it
those of one stretch or all names of a message. Nor can there be more records than
one for eight octets. It makes no difference what the counts and lengths in the
octets say, how many names are asked for, or in how much detail the message is
read. -/
theorem decode_textSize_le (v : Version) (count : Nat) (bs : Octets) (detail : Detail)
    (p : Octets) :
    (∀ names, NameList.decode v count bs = .ok names →
        NameList.textSize names ≤ 3 * bs.length) ∧
      ∀ m, decode detail p = .ok m →
        NameList.textSize (m.body.recordList.flatMap Record.names) ≤ 3 * p.length ∧
          m.body.recordList.length ≤ p.length / 8 := by
  refine ⟨fun names hnames => ?_, fun m hm => ?_⟩
  · exact (NameList.decode_eq_ok_iff.mp hnames).2.textSize_le
  · rw [Nat.le_div_iff_mul_le (by decide)]
    cases detail with
    | full => exact recordList_le hm
    | headerOnly =>
      rw [recordList_of_decode_headerOnly hm]
      exact ⟨Nat.zero_le _, Nat.zero_le _⟩

/-- An octet that is not UTF-8 reaches the bound. -/
example : NameList.decode .v0 1 [0xFF] = .ok [String.ofList [Utf8.replacement]] ∧
    (Utf8.encodeChar Utf8.replacement).length = 3 * 1 := by
  constructor
  · with_unfolding_all rfl
  · rfl

end Message

end FlowTelemetry

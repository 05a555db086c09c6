import FlowTelemetry.Proofs.Wire.BrokenNames

/-!
# How many names are asked for

A record says how many names it has, and nothing makes sure that this is true.
The stretch with its names does not depend on it: there is one list of all the
names that the stretch holds, and one place behind them where it breaks off.
Whoever asks for no more names than that is given the first of them, and whoever
asks for more is told about that place (`NameList.exists_decode_eq`). So two
counts for the same stretch can never lead to two different lists, one of which
does not begin like the other, nor to two different errors.

No stretch holds more names than can be told from its octets. A labelled name
has at least the octet that ends it. A terminated name may be empty and has no
octet then but the NUL that ends it, and one more name may lie behind the last
NUL, so the number of NULs is all that counts.
-/

namespace FlowTelemetry

open WireForm

/-- The octet that ends a name is always there. -/
theorem Name.Labelled.length_pos {name : String} {bs : Octets} (h : Labelled name bs) :
    1 ≤ bs.length := by
  obtain ⟨labels, hrun, -⟩ := h
  cases hrun with
  | root => exact Nat.le_refl 1
  | label _ _ _ => exact Nat.succ_pos _

namespace NameList

variable {v : Version} {names : List String} {bs : Octets}

/-- There is one piece more than there are NULs. -/
theorem length_splitOn_zero (bs : Octets) : (bs.splitOn 0).length = bs.count 0 + 1 :=
  pieces_eq_splitOn 0 bs ▸ length_pieces 0 bs

/-! ## Fewer names -/

theorem Terminated.take (h : Terminated names bs) (n : Nat) : Terminated (names.take n) bs := by
  obtain ⟨hcount, hnames⟩ := h
  refine ⟨Nat.le_trans (List.length_take_le' n names) hcount, ?_⟩
  calc names.take n
      = (((bs.splitOn 0).take names.length).map Utf8.text).take n := congrArg (·.take n) hnames
    _ = ((bs.splitOn 0).take (min n names.length)).map Utf8.text := by
      rw [← List.map_take, List.take_take]
    _ = ((bs.splitOn 0).take (names.take n).length).map Utf8.text := by rw [List.length_take]

theorem Labelled.take (h : Labelled names bs) (n : Nat) : Labelled (names.take n) bs := by
  obtain ⟨encoded, padding, rfl, hencoded⟩ := h
  obtain ⟨first, rest, rfl, hfirst⟩ := hencoded.take n
  exact ⟨first, rest ++ padding, List.append_assoc _ _ _, hfirst⟩

/-- **A stretch with names is one with the first of these names**, since what
follows the names is up to no one. -/
theorem Form.take (h : Form v names bs) (n : Nat) : Form v (names.take n) bs := by
  by_cases hv : v = .v0
  · subst hv
    exact Terminated.take h n
  · rw [form_of_ne hv] at h ⊢
    exact h.take n

theorem Terminated.length_le (h : Terminated names bs) : names.length ≤ bs.count 0 + 1 :=
  length_splitOn_zero bs ▸ h.1

theorem Labelled.length_le (h : Labelled names bs) : names.length ≤ bs.length := by
  obtain ⟨encoded, padding, rfl, hencoded⟩ := h
  have hle := hencoded.length_le fun _ _ => Name.Labelled.length_pos
  rw [List.length_append]
  omega

theorem Form.length_le_of_ne (h : Form v names bs) (hv : v ≠ .v0) :
    names.length ≤ bs.length := by
  rw [form_of_ne hv] at h
  exact h.length_le

theorem Form.length_le (h : Form v names bs) : names.length ≤ bs.length + 1 := by
  by_cases hv : v = .v0
  · subst hv
    exact Nat.le_trans (Terminated.length_le h) (Nat.succ_le_succ List.count_le_length)
  · exact Nat.le_succ_of_le (h.length_le_of_ne hv)

/-! ## All names -/

/-- Every stretch breaks off, because its octets do not suffice for any number of
names. -/
theorem exists_breaksOff (v : Version) (bs : Octets) : ∃ e, BreaksOff v bs e := by
  cases h : decode v (bs.length + 2) bs with
  | error e => exact ⟨e, (decode_eq_error_iff.mp h).1⟩
  | ok names =>
    obtain ⟨hcount, hform⟩ := decode_eq_ok_iff.mp h
    have hle := hform.length_le
    omega

/-- **What a stretch holds does not depend on how much of it is asked for.** There
are the names that can be read from it, and the place where it breaks off. -/
theorem exists_decode_eq (v : Version) (bs : Octets) :
    ∃ (names : List String) (offset : Nat), offset ≤ bs.length ∧ ∀ count, decode v count bs =
      if count ≤ names.length then .ok (names.take count) else .error ⟨names.length, offset⟩ := by
  obtain ⟨e, he⟩ := exists_breaksOff v bs
  obtain ⟨names, hnames⟩ := (he.decode_iff e.name).mpr (Nat.le_refl _)
  obtain ⟨hcount, hform⟩ := decode_eq_ok_iff.mp hnames
  refine ⟨names, e.offset, he.endsWithin.offset_le, fun count => ?_⟩
  split
  · next hle => exact decode_eq_ok_iff.mpr ⟨List.length_take_of_le hle, hform.take count⟩
  · next hlt =>
    rw [hcount] at hlt ⊢
    exact decode_eq_error_iff.mpr ⟨he, Nat.lt_of_not_le hlt⟩

/-- Terminated names can be read as long as there are pieces. -/
theorem exists_decode_v0_iff {count : Nat} :
    (∃ names, decode .v0 count bs = .ok names) ↔ count ≤ bs.count 0 + 1 := by
  obtain ⟨e, he⟩ := exists_breaksOff .v0 bs
  have hname : e.name = bs.count 0 + 1 := by
    rw [show e = ⟨(bs.splitOn 0).length, bs.length⟩ from he]
    exact length_splitOn_zero bs
  rw [he.decode_iff, hname]

/-- **Lists that are read for two counts agree**, and so do errors. A list that is
read begins with every list that is read for a smaller count. An error names a
place within the stretch and the first name that cannot be read, and whoever asks
for that name is given the same error. There are at most as many labelled names
as octets, and exactly one terminated name more than NULs can be asked for. -/
theorem decode_count (v : Version) (n : Nat) (bs : Octets) :
    (match decode v n bs with
      | .ok names => (∀ m, m ≤ n → decode v m bs = .ok (names.take m)) ∧
          (v ≠ .v0 → n ≤ bs.length)
      | .error e => e.name < n ∧ e.offset ≤ bs.length ∧
          (∀ k, k ≤ e.name → ∃ names, decode v k bs = .ok names) ∧
          ∀ k, e.name < k → decode v k bs = .error e) ∧
      ((∃ names, decode .v0 n bs = .ok names) ↔ n ≤ bs.count 0 + 1) := by
  refine ⟨?_, exists_decode_v0_iff⟩
  obtain ⟨names, offset, hoffset, hdecode⟩ := exists_decode_eq v bs
  rw [hdecode n]
  by_cases hn : n ≤ names.length
  · rw [if_pos hn]
    refine ⟨fun m hm => ?_, fun hv => ?_⟩
    · rw [hdecode m, if_pos (Nat.le_trans hm hn), List.take_take, Nat.min_eq_left hm]
    · obtain ⟨hcount, hform⟩ := decode_eq_ok_iff.mp ((hdecode n).trans (if_pos hn))
      exact hcount ▸ hform.length_le_of_ne hv
  · rw [if_neg hn]
    refine ⟨Nat.lt_of_not_le hn, hoffset, fun k hk => ⟨names.take k, ?_⟩, fun k hk => ?_⟩
    · rw [hdecode k, if_pos hk]
    · rw [hdecode k, if_neg (Nat.not_le.mpr hk)]

end NameList

end FlowTelemetry

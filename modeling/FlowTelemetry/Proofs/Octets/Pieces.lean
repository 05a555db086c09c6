import FlowTelemetry.Octets.Basic
import Mathlib.Algebra.Ring.Nat

/-!
# Pieces between separators

`pieces` cuts a sequence at every separator, which is what splitting does to
lists (`pieces_eq_splitOn`). Nothing is added by it, and nothing but separators
is lost: the pieces lie in the sequence one after the other, and no separator is
left in any of them. There is one separator less than there are pieces, so pieces
that are counted with a separator each have one too many (`sum_map_pieces`).

So it undoes the joining of parts, but only of parts that have no separator in
them, and only if there are any. The parts have to be looked at for that, because
a separator inside of one is like one between two of them. And to have no parts
is joined to the same empty sequence as to have a single empty one.
-/

namespace FlowTelemetry

variable {α : Type} [DecidableEq α]

/-- Cutting at a separator is the splitting of lists. -/
theorem pieces_eq_splitOn (separator : α) (as : List α) :
    pieces separator as = as.splitOn separator := by
  induction as with
  | nil => rfl
  | cons a rest ih =>
    rw [pieces, ih, List.splitOn_cons_eq_if_modifyHead]
    by_cases h : a = separator
    · rw [if_pos h, if_pos (beq_iff_eq.mpr h)]
    · rw [if_neg h, if_neg (by simpa using h)]
      cases hrest : rest.splitOn separator with
      | nil => exact absurd hrest (List.splitOn_ne_nil separator rest)
      | cons first others => rfl

/-- No separator is left in what lies between separators. -/
theorem separator_notMem_of_mem_pieces {separator : α} {as piece : List α}
    (h : piece ∈ pieces separator as) : separator ∉ piece := by
  induction as generalizing piece with
  | nil =>
    rw [List.mem_singleton.mp h]
    exact List.not_mem_nil
  | cons a as ih =>
    unfold pieces at h
    split at h
    · obtain rfl | h := List.mem_cons.mp h
      · exact List.not_mem_nil
      · exact ih h
    · next hne =>
      split at h
      · next hnil => exact absurd hnil (pieces_ne_nil separator as)
      · next first others hpieces =>
        rw [hpieces] at ih
        obtain rfl | h := List.mem_cons.mp h
        · exact List.not_mem_cons_of_ne_of_not_mem (Ne.symm hne) (ih List.mem_cons_self)
        · exact ih (List.mem_cons_of_mem first h)

/-- **What lies between separators was there before**, and in the same order. -/
theorem sublist_flatten_pieces (separator : α) (as : List α) :
    (pieces separator as).flatten.Sublist as := by
  induction as with
  | nil => exact List.Sublist.slnil
  | cons a as ih =>
    unfold pieces
    split
    · exact ih.cons a
    · split
      · next hnil => exact absurd hnil (pieces_ne_nil separator as)
      · next first others hpieces =>
        rw [hpieces] at ih
        exact ih.cons_cons a

/-- **The pieces weigh as much as the sequence**, if each is weighed with a
separator and the sequence with one more than it has. -/
theorem sum_map_pieces (weight : α → Nat) (separator : α) (as : List α) :
    ((pieces separator as).map fun piece => (piece.map weight).sum + weight separator).sum =
      (as.map weight).sum + weight separator := by
  induction as with
  | nil => rfl
  | cons a as ih =>
    unfold pieces
    split
    · next h =>
      rw [h, List.map_cons, List.sum_cons, ih, List.map_cons, List.sum_cons, List.map_nil,
        List.sum_nil]
      omega
    · split
      · next hnil => exact absurd hnil (pieces_ne_nil separator as)
      · next first others hpieces =>
        rw [hpieces, List.map_cons, List.sum_cons] at ih
        rw [List.map_cons, List.sum_cons, List.map_cons, List.sum_cons, List.map_cons,
          List.sum_cons]
        omega

/-- Each piece has one element more with the separator after it. -/
theorem sum_length_pieces (separator : α) (as : List α) :
    ((pieces separator as).map fun piece => piece.length + 1).sum = as.length + 1 := by
  simpa only [List.map_const', List.sum_replicate_nat, Nat.mul_one] using
    sum_map_pieces (fun _ => 1) separator as

/-! ## Parts that were joined -/

/-- **Parts without separators are found again** when they were joined with
separators between them. -/
theorem pieces_intercalate {separator : α} {parts : List (List α)} (hne : parts ≠ [])
    (h : ∀ part ∈ parts, separator ∉ part) :
    pieces separator ([separator].intercalate parts) = parts := by
  rw [pieces_eq_splitOn]
  exact List.splitOn_intercalate separator h hne

omit [DecidableEq α] in
/-- What is neither the separator nor in a part is not in the joined parts. -/
theorem notMem_intercalate {a separator : α} {parts : List (List α)} (hne : a ≠ separator)
    (h : ∀ part ∈ parts, a ∉ part) : a ∉ [separator].intercalate parts := by
  induction parts with
  | nil => exact List.not_mem_nil
  | cons part parts ih =>
    obtain ⟨hpart, hparts⟩ := List.forall_mem_cons.mp h
    cases parts with
    | nil => rwa [List.intercalate_singleton]
    | cons next parts =>
      rw [List.intercalate_cons_cons, List.mem_append, List.mem_append, List.mem_singleton]
      exact not_or.mpr ⟨not_or.mpr ⟨hpart, hne⟩, ih hparts⟩

end FlowTelemetry

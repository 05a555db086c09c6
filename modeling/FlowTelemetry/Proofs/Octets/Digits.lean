import FlowTelemetry.Capture.Frame
import Mathlib.Data.List.DropRight

/-!
# Octets as they are shown

Frames that were dropped are shown to a person, and what is shown has to be good
for more than looking at it. Octets can be read back from their digits, so that
different ones are never shown alike.

Two things are shown beside digits: the dots at the end of an excerpt, and in the
text of an error the reason in front of the frame. Neither is ever taken for a
digit. The dots therefore tell whether something was left out, and an excerpt leaves
nothing open but what comes behind it (`excerpt_eq_excerpt_iff`). A reason may have
any characters in it, even the bar that ends it. But there is no bar among digits,
so the frame is what stands behind the last one (`FrameError.frame?_text`).
-/

namespace FlowTelemetry

namespace Hex

/-- The sixteen digits. -/
def digits : List Char :=
  ['0', '1', '2', '3', '4', '5', '6', '7', '8', '9', 'a', 'b', 'c', 'd', 'e', 'f']

theorem digit_mem_digits {n : Nat} (small : n < 16) : digit n ∈ digits := by
  have all : ∀ n : Fin 16, digit n.val ∈ digits := by decide
  exact all ⟨n, small⟩

/-- **Only digits are shown.** -/
theorem mem_digits_of_mem_encode {bs : Octets} {c : Char} (h : c ∈ encode bs) : c ∈ digits := by
  obtain ⟨b, -, hc⟩ := List.mem_flatMap.mp h
  have hb := b.toNat_lt
  rw [octet_eq] at hc
  obtain rfl | hlow := List.mem_cons.mp hc
  · exact digit_mem_digits (by omega)
  · rw [List.mem_singleton.mp hlow]
    exact digit_mem_digits (by omega)

theorem toList_text (bs : Octets) : (text bs).toList = encode bs := String.toList_ofList

theorem encode_inj {xs ys : Octets} : encode xs = encode ys ↔ xs = ys := by
  refine ⟨fun h => ?_, congrArg encode⟩
  exact Option.some.inj ((decode?_encode xs).symm.trans (h ▸ decode?_encode ys))

/-! ## Excerpts -/

theorem toList_excerpt (bs : Octets) (limit : Nat) :
    (excerpt bs limit).toList =
      if limit < bs.length then encode (bs.take limit) ++ ['.', '.', '.'] else encode bs := by
  rw [excerpt_eq]
  split
  · rw [String.toList_append, toList_text]
    rfl
  · exact toList_text bs

/-- **The dots tell whether something was left out.** -/
theorem dot_mem_excerpt_iff {bs : Octets} {limit : Nat} :
    '.' ∈ (excerpt bs limit).toList ↔ limit < bs.length := by
  rw [toList_excerpt]
  split
  · next h => exact iff_of_true (List.mem_append_right _ List.mem_cons_self) h
  · next h => exact iff_of_false (fun hdot => absurd (mem_digits_of_mem_encode hdot) (by decide)) h

/-- **What an excerpt leaves open** is how octets go on that are longer than it. -/
theorem excerpt_eq_excerpt_iff {xs ys : Octets} {limit : Nat} :
    excerpt xs limit = excerpt ys limit ↔
      xs = ys ∨ limit < xs.length ∧ limit < ys.length ∧ xs.take limit = ys.take limit := by
  constructor
  · intro h
    have hlonger : limit < xs.length ↔ limit < ys.length := by
      rw [← dot_mem_excerpt_iff, h, dot_mem_excerpt_iff]
    have hshown := congrArg String.toList h
    rw [toList_excerpt, toList_excerpt] at hshown
    by_cases hx : limit < xs.length
    · have hy := hlonger.mp hx
      rw [if_pos hx, if_pos hy] at hshown
      exact Or.inr ⟨hx, hy, encode_inj.mp (List.append_cancel_right hshown)⟩
    · rw [if_neg hx, if_neg (mt hlonger.mpr hx)] at hshown
      exact Or.inl (encode_inj.mp hshown)
  · rintro (rfl | ⟨hx, hy, htake⟩)
    · rfl
    · rw [excerpt_eq, excerpt_eq, if_pos hx, if_pos hy, htake]

end Hex

/-! ## Frames that were dropped -/

/-- What stands behind the last bar. -/
theorem rtakeWhile_bar {before after : List Char} (h : '|' ∉ after) :
    (before ++ '|' :: after).rtakeWhile (· != '|') = after := by
  induction after using List.reverseRecOn with
  | nil => exact List.rtakeWhile_concat_neg _ _ _ (by decide)
  | append_singleton after c ih =>
    have hafter : '|' ∉ after := fun hbar => h (List.mem_append_left _ hbar)
    have hc : (c != '|') = true := bne_iff_ne.mpr fun hbar =>
      h (hbar ▸ List.mem_append_right _ (List.mem_singleton_self c))
    rw [← List.cons_append, ← List.append_assoc,
      List.rtakeWhile_concat_pos (· != '|') _ c hc, ih hafter]

namespace FrameError

/-- The frame in the text of an error. -/
def frame? (text : String) : Option Octets := Hex.decode? (text.toList.rtakeWhile (· != '|'))

/-- **The frame can be read off the text of an error**, whatever the reason. -/
theorem frame?_text (e : FrameError) : frame? e.text = some e.raw := by
  have hbar : '|' ∉ Hex.encode e.raw := fun h =>
    absurd (Hex.mem_digits_of_mem_encode h) (by decide)
  have htext : e.text.toList = e.reason.message.toList ++ '|' :: Hex.encode e.raw := by
    unfold text
    rw [String.toList_append, String.toList_append, Hex.toList_text, List.append_assoc]
    rfl
  rw [frame?, htext, rtakeWhile_bar hbar, Hex.decode?_encode]

end FrameError

/-- **Octets are shown faithfully.** There are two digits for each octet and nothing
else, and they read back as the octets. An excerpt shows all of them, or the first
ones and three dots, and two excerpts are alike only if the octets are, or if both go
on after the same beginning. The text of an error is the reason, a bar and the
digits of the whole frame, from which the frame can be recovered. -/
theorem Hex.shown_faithfully [Network.Slicer] (xs ys : Octets) (limit : Nat) (e : FrameError) :
    ((text xs).length = 2 * xs.length ∧ (∀ c ∈ (text xs).toList, c ∈ digits) ∧
        decode? (text xs).toList = some xs ∧ (text xs = text ys ↔ xs = ys)) ∧
      (excerpt xs limit =
          (if xs.length ≤ limit then text xs else text (xs.take limit) ++ "...") ∧
        (excerpt xs limit = excerpt ys limit ↔
          xs = ys ∨ limit < xs.length ∧ limit < ys.length ∧ xs.take limit = ys.take limit)) ∧
      (e.text = e.reason.message ++ "|" ++ text e.raw ∧ FrameError.frame? e.text = some e.raw) ∧
      ∀ f : Frame, f.unwrap = .error e → FrameError.frame? e.text = some f.octets := by
  refine ⟨⟨?_, ?_, ?_, ?_⟩, ⟨?_, excerpt_eq_excerpt_iff⟩, ⟨rfl, e.frame?_text⟩, ?_⟩
  · rw [← String.length_toList, toList_text, length_encode]
  · intro c hc
    exact mem_digits_of_mem_encode (toList_text xs ▸ hc)
  · rw [toList_text, decode?_encode]
  · rw [← String.toList_inj, toList_text, toList_text, encode_inj]
  · rw [excerpt_eq, ← ite_not]
    simp only [Nat.not_lt]
  · intro f hf
    rw [e.frame?_text]
    unfold Frame.unwrap at hf
    split at hf
    · exact nomatch hf
    · rw [← Except.error.inj hf]

end FlowTelemetry

import FlowTelemetry.Wire.Message

/-!
# The grammar of messages

What the octets of a message look like is said here without saying how they
are read or written. A `WireForm` relates a value to the octets that stand
for it, and the forms of a message are put together from the forms of its
parts: the octets of a part come first, those of the next part follow, and
nothing lies between them.

## More than one form

A form is a relation and not a function, because reading is more liberal
than writing. The same names may be followed by any padding, a label may
hold octets that are not UTF-8, and terminated names need not be terminated:
the last one may simply run out. A reader has to accept all of these, and a
writer picks one.

Terminated names are described by `List.splitOn`, which knows nothing of
names or of padding. Every NUL cuts, so the padding that follows the names
is cut as well, and it is by the count of names alone that the empty pieces
it leaves are passed over.
-/

namespace FlowTelemetry

/-- **A wire form**: which octets stand for which value. -/
abbrev WireForm (α : Type) := α → Octets → Prop

namespace WireForm

variable {α β : Type}

/-- No octets at all, for one value only. -/
def nothing (a : α) : WireForm α := fun b bs => b = a ∧ bs = []

/-- One form and then another, which may depend on the value of the first. -/
def bind (F : WireForm α) (G : α → WireForm β) : WireForm β := fun b bs =>
  ∃ a first second, bs = first ++ second ∧ F a first ∧ G a b second

/-- **Things of one form, one after the other.** -/
inductive Sequence (F : WireForm α) : WireForm (List α) where
  | nil : Sequence F [] []
  | cons {a : α} {as : List α} {bs more : Octets} :
      F a bs → Sequence F as more → Sequence F (a :: as) (bs ++ more)

/-- A given number of things of one form. -/
def Exactly (n : Nat) (F : WireForm α) : WireForm (List α) := fun as bs =>
  as.length = n ∧ Sequence F as bs

section Sequence

variable {F : WireForm α} {as : List α} {bs : Octets}

/-- Each of the things has octets of its own. -/
theorem Sequence.exists_of_mem (h : Sequence F as bs) {a : α} (ha : a ∈ as) :
    ∃ part, F a part := by
  induction h with
  | nil => exact absurd ha List.not_mem_nil
  | cons hfirst _ ih =>
    obtain rfl | hlater := List.mem_cons.mp ha
    · exact ⟨_, hfirst⟩
    · exact ih hlater

/-- The first of some things lie in front. -/
theorem Sequence.take (h : Sequence F as bs) (n : Nat) :
    ∃ first rest, bs = first ++ rest ∧ Sequence F (as.take n) first := by
  induction h generalizing n with
  | nil => exact ⟨[], [], rfl, List.take_nil.symm ▸ Sequence.nil⟩
  | @cons a as run more ha has ih =>
    cases n with
    | zero => exact ⟨[], run ++ more, rfl, Sequence.nil⟩
    | succ n =>
      obtain ⟨first, rest, rfl, hfirst⟩ := ih n
      exact ⟨run ++ first, rest, (List.append_assoc _ _ _).symm, Sequence.cons ha hfirst⟩

/-- There are no more things than octets if each has an octet. -/
theorem Sequence.length_le (h : Sequence F as bs) (hF : ∀ a run, F a run → 1 ≤ run.length) :
    as.length ≤ bs.length := by
  induction h with
  | nil => exact Nat.le_refl 0
  | @cons a as run more ha _ ih =>
    have hrun := hF a run ha
    rw [List.length_cons, List.length_append]
    omega

/-- If things of a form come from others, then so do several of them. -/
theorem Sequence.exists_map {P : β → Prop} {value : β → α} {written : β → Octets}
    (h : Sequence F as bs)
    (hF : ∀ a part, F a part → ∃ x, P x ∧ value x = a ∧ written x = part) :
    ∃ xs : List β, (∀ x ∈ xs, P x) ∧ xs.map value = as ∧ xs.flatMap written = bs := by
  induction h with
  | nil => exact ⟨[], nofun, rfl, rfl⟩
  | cons ha _ ih =>
    obtain ⟨x, hx, rfl, rfl⟩ := hF _ _ ha
    obtain ⟨xs, hxs, rfl, rfl⟩ := ih
    exact ⟨x :: xs, List.forall_mem_cons.mpr ⟨hx, hxs⟩, rfl, rfl⟩

end Sequence

/-- Things with one written form each are written one after the other. -/
theorem sequence_eq_iff {written : α → Octets} {as : List α} {bs : Octets} :
    Sequence (fun a bs => bs = written a) as bs ↔ bs = as.flatMap written := by
  constructor
  · intro h
    induction h with
    | nil => rfl
    | cons hform _ ih => rw [hform, ih, List.flatMap_cons]
  · rintro rfl
    induction as with
    | nil => exact Sequence.nil
    | cons a as ih => exact Sequence.cons rfl ih

end WireForm

open WireForm

/-! ## Names -/

/-- **The labels of a name**, each with its length in the octet before it,
and then the length zero. -/
inductive Name.Run : WireForm (List Octets) where
  | root : Run [] [0]
  | label {label : Octets} {labels : List Octets} {run : Octets} :
      1 ≤ label.length → label.length ≤ 255 → Run labels run →
      Run (label :: labels) (UInt8.ofNat label.length :: (label ++ run))

/-- A name as a run of labels, and its text as these labels with dots between
them. -/
def Name.Labelled : WireForm String := fun name bs =>
  ∃ labels, Run labels bs ∧ name = ofLabels labels

/-- **Terminated names**: the first pieces of octets that are cut at every
NUL. There may be more pieces than names. -/
def NameList.Terminated : WireForm (List String) := fun names bs =>
  names.length ≤ (bs.splitOn 0).length ∧
    names = ((bs.splitOn 0).take names.length).map Utf8.text

/-- **Labelled names**, one after the other, and then anything at all. -/
def NameList.Labelled : WireForm (List String) := fun names bs =>
  ∃ encoded padding, bs = encoded ++ padding ∧ Sequence Name.Labelled names encoded

/-- The names of a record in the form of a version. -/
def NameList.Form : Version → WireForm (List String)
  | .v0 => Terminated
  | .v1 => Labelled
  | .v2 => Labelled

/-- All versions but one have labelled names. -/
theorem NameList.form_of_ne {v : Version} (hv : v ≠ .v0) : Form v = Labelled := by
  cases v with
  | v0 => exact absurd rfl hv
  | v1 => rfl
  | v2 => rfl

/-! ## Records, counters and messages -/

/-- **A record**: the client, the two counts, the length of the names, the
names and the addresses. -/
def Record.Form (v : Version) : WireForm Record := fun r bs =>
  ∃ (nameCount addressCount : UInt8) (length : UInt16) (names : Octets),
    bs = r.client.octets ++ [nameCount, addressCount] ++ Octets.ofUInt16 length ++ names ++
      r.addresses.flatMap Address.octets ∧
    nameCount.toNat = r.names.length ∧ addressCount.toNat = r.addresses.length ∧
    length.toNat = names.length ∧ NameList.Form v r.names names

/-- **Counters**: four numbers, and the sampling rate as a fifth in version 2
and in no other. -/
def Snapshot.Form (v : Version) : WireForm Snapshot := fun s bs =>
  bs = Octets.ofUInt32 s.captured ++ Octets.ofUInt32 s.received ++ Octets.ofUInt32 s.dropped ++
    Octets.ofUInt32 s.interfaceDropped ++ (s.sampleRate.map Octets.ofUInt32).getD [] ∧
  (s.sampleRate.isSome ↔ v = .v2)

/-- Bit 0 of the flags is set. -/
def Flags.LowBit (f : Flags) : Prop := f.bits.toNat % 2 = 1

/-- **A header**: version, number of records, flags and sequence number. Unless
bit 0 of the flags is set there has to be a record. -/
def Header.Form : WireForm Header := fun h bs =>
  bs = [h.version.number, h.setCount] ++ Octets.ofUInt16 h.flags.bits ++
    Octets.ofUInt32 h.sequence ∧
  (h.flags.LowBit ∨ 0 < h.setCount.toNat)

/-- **What follows a header**: counters if bit 0 of the flags is set, else as
many records as the header says. -/
def Body.Form (h : Header) : WireForm Body
  | .stats s, bs => h.flags.LowBit ∧ Snapshot.Form h.version s bs
  | .records rs, bs =>
    ¬ h.flags.LowBit ∧ Exactly h.setCount.toNat (Record.Form h.version) rs bs

/-- **A message**: its header and what follows it. -/
def Message.Form : WireForm Message := fun m bs =>
  ∃ header body, bs = header ++ body ∧ m.header.Form header ∧ m.body.Form m.header body

/-- The flag of messages that carry counters is bit 0. -/
theorem Flags.isStats_iff_lowBit (f : Flags) : f.isStats = true ↔ f.LowBit := by
  unfold Flags.isStats Flags.contains Flags.stats Flags.LowBit
  rw [beq_iff_eq, ← UInt16.toNat_inj, UInt16.toNat_and]
  show f.bits.toNat &&& 1 = 1 ↔ _
  rw [Nat.and_one_is_mod]

end FlowTelemetry

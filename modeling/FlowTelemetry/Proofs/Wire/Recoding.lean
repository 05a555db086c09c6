import FlowTelemetry.Proofs.Wire.RoundTrip

/-!
# Writing again what was read

Octets from which a message can be read need not be what a writer would have
written: a label may hold a dot or octets that are not UTF-8, there may be
padding that is no padding, and the datagram may go on. When such a message is
written again all of this is gone, and one would like to know that it is gone
for good: the octets that come out should be those that come out of every
further round.

What was written reads back as the normal form of the message, so all that has
to be shown is that *the normal form is written with the same octets*. This is
not true of every message. Of a name with two dots at its end the normal form
loses one, and would lose the other one next time. But such a name cannot be
written at all, because there is an empty label between the two dots: if the
labels of a name may be written, then none of them is empty, and nothing is
left to be lost (`Name.withoutFinalDot_eq_self`).

The other parts of a message follow, since an effect that does not fail says
of each of its parts that it does not fail either
(`Effect.all_map_map_eq_add`).
-/

namespace FlowTelemetry

/-- A list that may be written is made of parts that may be written. -/
theorem Effect.exists_add_of_mem {α : Type} {effect : α → Effect} {as : List α} {bs : Octets}
    (h : all (as.map effect) = .add bs) {a : α} (ha : a ∈ as) : ∃ part, effect a = .add part := by
  induction as generalizing bs with
  | nil => exact absurd ha List.not_mem_nil
  | cons first as ih =>
    obtain ⟨bs, more, hfirst, hmore, -⟩ := seq_eq_add_iff.mp h
    rcases List.mem_cons.mp ha with rfl | hlater
    · exact ⟨bs, hfirst⟩
    · exact ih hmore hlater

/-- If each part of a list may be exchanged for another one that is written
with the same octets, then so may all of them. -/
theorem Effect.all_map_map_eq_add {α : Type} {effect : α → Effect} {change : α → α}
    (hchange : ∀ a bs, effect a = .add bs → effect (change a) = .add bs) {as : List α}
    {bs : Octets} (h : all (as.map effect) = .add bs) :
    all ((as.map change).map effect) = .add bs := by
  induction as generalizing bs with
  | nil => exact h
  | cons a as ih =>
    obtain ⟨first, second, ha, has, rfl⟩ := seq_eq_add_iff.mp h
    exact seq_eq_add_iff.mpr ⟨first, second, hchange a first ha, ih has, rfl⟩

/-! ## Names -/

namespace Name

/-- Behind a dot at the end there is an empty piece. Where there is no such
piece, there is no dot to be lost. -/
theorem withoutFinalDot_eq_self {cs : List Char} (h : [] ∉ pieces '.' cs) :
    withoutFinalDot cs = cs := by
  unfold withoutFinalDot
  refine if_neg fun hlast => h ?_
  obtain ⟨front, rfl⟩ := List.getLast?_eq_some_iff.mp hlast
  rw [pieces_eq_splitOn, List.splitOn_append_cons_self, List.splitOn_nil]
  exact List.mem_append_right _ (List.mem_singleton_self _)

/-- None of the labels is empty if they may all be written. -/
theorem nil_notMem_of_effect {labels : List (List Char)} {bs : Octets}
    (h : Effect.all (labels.map labelEffect) = .add bs) : [] ∉ labels := by
  intro hmem
  obtain ⟨_, hlabel⟩ := Effect.exists_add_of_mem h hmem
  exact absurd (labelEffect_eq_add_iff.mp hlabel).1 (Nat.not_succ_le_zero 0)

/-- **The dot that a name loses is the only one it can lose**, if its labels
may be written. -/
theorem labels_withoutFinalDot {name : String} (h : [] ∉ labels name) :
    labels (String.ofList (withoutFinalDot name.toList)) = labels name := by
  unfold labels at h ⊢
  rw [String.toList_ofList]
  cases hcs : withoutFinalDot name.toList with
  | nil => rfl
  | cons c cs =>
    rw [hcs] at h
    rw [withoutFinalDot_eq_self h]

/-- **A name is written like its normal form.** -/
theorem effect_normalised {v : Version} {name : String} {bs : Octets}
    (h : effect v name = .add bs) : effect v (normalised v name) = .add bs := by
  unfold effect normalised at *
  by_cases hlabels : v.hasLabels
  · rw [if_pos hlabels] at h ⊢
    rw [if_pos hlabels]
    obtain ⟨first, _, hall, -, -⟩ := Effect.seq_eq_add_iff.mp h
    unfold labelledEffect at h ⊢
    rw [labels_withoutFinalDot (nil_notMem_of_effect hall)]
    exact h
  · rw [if_neg hlabels] at h ⊢
    rw [if_neg hlabels]
    exact h

end Name

/-- So are several names. -/
theorem NameList.effect_normalised {v : Version} {names : List String} {bs : Octets}
    (h : effect v names = .add bs) : effect v (names.map (Name.normalised v)) = .add bs := by
  have hname : ∀ name part, Name.effect v name = .add part →
      Name.effect v (Name.normalised v name) = .add part := fun _ _ => Name.effect_normalised
  exact Effect.all_map_map_eq_add hname h

/-! ## Records, counters and messages -/

/-- **A record is written like its normal form.** Nothing but the names is
different in it, and there are as many of them. -/
theorem Record.effect_normalised {v : Version} {r : Record} {bs : Octets}
    (h : effect v r = .add bs) : effect v (r.normalised v) = .add bs := by
  have hlength : (r.normalised v).names.length = r.names.length := List.length_map _
  have hfront : (r.normalised v).front = r.front := by
    unfold front
    rw [hlength]
    rfl
  have haddresses : (r.normalised v).addresses = r.addresses := rfl
  unfold effect at h ⊢
  rw [hlength, hfront, haddresses]
  split at h
  · exact nomatch congrArg Effect.failure h
  · next hcounts =>
    obtain ⟨_, _, -, hrest, -⟩ := Effect.seq_eq_add_iff.mp h
    obtain ⟨_, _, hprefixed, -, -⟩ := Effect.seq_eq_add_iff.mp hrest
    obtain ⟨_, hpadded, -, -⟩ := Effect.lengthPrefixed_eq_add_iff.mp hprefixed
    obtain ⟨names, hnames, -⟩ := Effect.padded_eq_add_iff.mp hpadded
    have hsame : NameList.effect v (r.normalised v).names = NameList.effect v r.names :=
      (NameList.effect_normalised hnames).trans hnames.symm
    rw [if_neg hcounts, hsame]
    exact h

/-- Counters are written like their normal form: a sampling rate that was not
given is written as zero. -/
theorem Snapshot.octets_normalised (v : Version) (s : Snapshot) :
    (s.normalised v).octets v = s.octets v := by
  cases v <;> rfl

namespace Message

/-- A body is written like its normal form. -/
theorem bodyEffect_normalised {v : Version} {body : Body} {bs : Octets}
    (h : bodyEffect v body = .add bs) : bodyEffect v (body.normalised v) = .add bs := by
  cases body with
  | stats s => exact (congrArg Effect.add (Snapshot.octets_normalised v s)).trans h
  | records rs =>
    have hrecord : ∀ r part, Record.effect v r = .add part →
        Record.effect v (r.normalised v) = .add part := fun _ _ => Record.effect_normalised
    exact Effect.all_map_map_eq_add hrecord h

/-- **A message is written like its normal form.** -/
theorem encode_normalised {m : Message} {bs : Octets} (h : m.encode = .ok bs) :
    m.normalised.encode = .ok bs := by
  obtain ⟨header, body, hheader, hbody, rfl⟩ := Effect.seq_eq_add_iff.mp (encode_eq_ok_iff.mp h)
  exact encode_eq_ok_iff.mpr
    (Effect.seq_eq_add_iff.mpr ⟨header, body, hheader, bodyEffect_normalised hbody, rfl⟩)

/-! ## Rounds of reading and writing -/

/-- Reads a message and writes it again. -/
def recode (bs : Octets) : Option Octets :=
  (decode .full bs).toOption.bind fun m => m.encode.toOption

/-- A number of rounds, each of which reads what the one before it wrote. -/
def rounds : Nat → Octets → Option Octets
  | 0, bs => some bs
  | n + 1, bs => (recode bs).bind (rounds n)

/-- Octets that come out of a round as they were do so any number of times. -/
theorem rounds_eq_some_self {bs : Octets} (h : recode bs = some bs) (n : Nat) :
    rounds n bs = some bs := by
  induction n with
  | zero => rfl
  | succ n ih =>
    unfold rounds
    rw [h]
    exact ih

/-- **What was written is written again**, octet for octet. However a message
came about, the octets it is written with are read as a message that is written
with the same octets, so that no number of rounds changes them any more. Octets
that the message was read from come to these in the first round and stay
there. -/
theorem encode_decode_encode {m : Message} (made : m.Made) {bs : Octets} (h : m.encode = .ok bs) :
    (∃ m', decode .full bs = .ok m' ∧ m'.encode = .ok bs) ∧
      (∀ n, rounds n bs = some bs) ∧
      ∀ p, decode .full p = .ok m → ∀ n, rounds (n + 1) p = some bs := by
  have hdecode : decode .full bs = .ok m.normalised :=
    decode_eq_ok_iff_form.mpr ⟨bs, [], (List.append_nil bs).symm, made.form_of_encode h⟩
  have hencode := encode_normalised h
  have hrecode : ∀ {p : Octets} {m : Message}, decode .full p = .ok m → m.encode = .ok bs →
      recode p = some bs := by
    intro p m hp hm
    unfold recode
    rw [hp]
    exact congrArg Except.toOption hm
  have hrounds := rounds_eq_some_self (hrecode hdecode hencode)
  refine ⟨⟨m.normalised, hdecode, hencode⟩, hrounds, fun p hp n => ?_⟩
  unfold rounds
  rw [hrecode hp h]
  exact hrounds n

/-- A record with a dot within a label and one at the end of another, an octet
that is not UTF-8, something other than zeros behind its names, and something
behind it. -/
def liberal : Octets :=
  [1, 1, 0, 0, 0, 0, 0, 7, 10, 0, 0, 1, 3, 0, 0, 14, 3, 97, 46, 98, 0, 2, 99, 46, 0, 1, 255, 0,
    9, 9, 1, 2, 3]

/-- The message that is read from it. -/
def liberalMessage : Message :=
  { header := { version := .v1, setCount := 1, flags := .none, sequence := 7 }
    body := .records [⟨⟨10, 0, 0, 1⟩, ["a.b", "c.", "�"], []⟩] }

/-- The octets that it comes to. -/
def canonical : Octets :=
  [1, 1, 0, 0, 0, 0, 0, 7, 10, 0, 0, 1, 3, 0, 0, 16, 1, 97, 1, 98, 0, 1, 99, 0, 3, 239, 191, 189, 0,
    0, 0, 0]

/-- It is written quite differently, and from then on always in the same
way. -/
theorem encode_decode_encode_liberal :
    liberalMessage.Made ∧ liberalMessage.encode = .ok canonical ∧
      (∃ m', decode .full canonical = .ok m' ∧ m'.encode = .ok canonical) ∧
      rounds 5 canonical = some canonical ∧ rounds 5 liberal = some canonical := by
  have hdecode : decode .full liberal = .ok liberalMessage := by with_unfolding_all rfl
  have made : liberalMessage.Made := .decoded hdecode
  have hencode : liberalMessage.encode = .ok canonical := by cbv
  obtain ⟨hagain, hrounds, hfrom⟩ := encode_decode_encode made hencode
  exact ⟨made, hencode, hagain, hrounds 5, hfrom liberal hdecode 4⟩

end Message

end FlowTelemetry

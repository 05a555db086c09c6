import FlowTelemetry.Proofs.Wire.Grammar

/-!
# Readers that accept a form

A reader *accepts* a wire form if it succeeds on exactly those octets that
begin with the form of what it yields, and goes past the form and no
further. `Reader.Accepts` says both directions at once, so that what a
reader accepts determines all of its successes.

Acceptance is compositional. A reader that reads one thing and then another
accepts the one form followed by the other (`accepts_bind`), and a loop
accepts as many of one form as it has turns (`accepts_exactly_succ` is one
turn of it). Below these only the reads of single fields are about octets.

Nothing is said here about failures. That a reader fails wherever no form
is found follows, but not with which error.
-/

namespace FlowTelemetry

variable {ε α β : Type}

/-- **A reader accepts a form**: it succeeds exactly if the form of what it
yields lies in front, and ends after it. -/
def Reader.Accepts (read : Reader ε α) (F : WireForm α) : Prop :=
  ∀ (c after : Cursor) (a : α), read c = .ok a after ↔
    ∃ bs, F a bs ∧ c.rest = bs ++ after.rest ∧ after.position = c.position + bs.length

/-- The same for an elementary read. -/
def Cursor.Takes (read : Cursor → Option (α × Cursor)) (F : WireForm α) : Prop :=
  ∀ (c after : Cursor) (a : α), read c = some (a, after) ↔
    ∃ bs, F a bs ∧ c.rest = bs ++ after.rest ∧ after.position = c.position + bs.length

namespace Reader

open WireForm

/-- Equivalent forms are accepted alike. -/
theorem Accepts.congr {read : Reader ε α} {F G : WireForm α} (h : read.Accepts F)
    (heq : ∀ a bs, F a bs ↔ G a bs) : read.Accepts G := by
  intro c after a
  rw [h c after a]
  exact exists_congr (fun bs => by rw [heq a bs])

/-- A reader made of two succeeds if both do, the second where the first
ended. -/
theorem bind_eq_ok_iff {read : Reader ε α} {next : α → Reader ε β} {c after : Cursor} {b : β} :
    (read >>= next) c = .ok b after ↔
      ∃ a mid, read c = .ok a mid ∧ next a mid = .ok b after := by
  show EStateM.bind read next c = .ok b after ↔ _
  unfold EStateM.bind
  cases hread : read c with
  | ok a mid =>
    constructor
    · exact fun h => ⟨a, mid, rfl, h⟩
    · rintro ⟨a', mid', h, hnext⟩
      cases h
      exact hnext
  | error e mid =>
    constructor
    · exact fun h => nomatch h
    · rintro ⟨_, _, h, _⟩
      exact nomatch h

/-- **One form and then another.** -/
theorem accepts_bind {read : Reader ε α} {next : α → Reader ε β} {F : WireForm α}
    {G : α → WireForm β} (hread : read.Accepts F) (hnext : ∀ a, (next a).Accepts (G a)) :
    Accepts (read >>= next) (WireForm.bind F G) := by
  intro c after b
  rw [bind_eq_ok_iff]
  constructor
  · rintro ⟨a, mid, ha, hb⟩
    obtain ⟨first, hF, hrest, hposition⟩ := (hread c mid a).mp ha
    obtain ⟨second, hG, hrest', hposition'⟩ := (hnext a mid after b).mp hb
    refine ⟨first ++ second, ⟨a, first, second, rfl, hF, hG⟩, ?_, ?_⟩
    · rw [hrest, hrest', List.append_assoc]
    · rw [hposition', hposition, List.length_append, Nat.add_assoc]
  · rintro ⟨_, ⟨a, first, second, rfl, hF, hG⟩, hrest, hposition⟩
    -- The place between the two is where the first form ends.
    refine ⟨a, ⟨c.position + first.length, second ++ after.rest⟩, ?_, ?_⟩
    · exact (hread _ _ _).mpr ⟨first, hF, by rw [hrest, List.append_assoc], rfl⟩
    · refine (hnext _ _ _ _).mpr ⟨second, hG, rfl, ?_⟩
      rw [hposition, List.length_append, Nat.add_assoc]

theorem accepts_pure (a : α) : Accepts (ε := ε) (pure a) (nothing a) := by
  intro c after b
  show EStateM.Result.ok a c = .ok b after ↔ _
  constructor
  · intro h
    cases h
    exact ⟨[], ⟨rfl, rfl⟩, rfl, rfl⟩
  · rintro ⟨_, ⟨rfl, rfl⟩, hrest, hposition⟩
    cases c
    cases after
    simp only [List.nil_append, List.length_nil, Nat.add_zero] at hrest hposition
    rw [hrest, hposition]

/-- What is read may be renamed on the way. -/
theorem accepts_map {read : Reader ε α} {F : WireForm α} (hread : read.Accepts F) (f : α → β) :
    Accepts (f <$> read) (fun b bs => ∃ a, b = f a ∧ F a bs) := by
  have hmap : f <$> read = read >>= fun a => pure (f a) := by
    funext c
    show EStateM.map f read c = EStateM.bind read (fun a => pure (f a)) c
    unfold EStateM.map EStateM.bind
    cases read c <;> rfl
  rw [hmap]
  refine (accepts_bind hread fun a => accepts_pure (f a)).congr (fun b bs => ⟨?_, ?_⟩)
  · rintro ⟨a, first, _, rfl, hF, rfl, rfl⟩
    exact ⟨a, rfl, by rwa [List.append_nil]⟩
  · rintro ⟨a, rfl, hF⟩
    exact ⟨a, bs, [], (List.append_nil bs).symm, hF, rfl, rfl⟩

/-- A field is accepted as its elementary read takes it. -/
theorem accepts_field {read : Cursor → Option (α × Cursor)} {F : WireForm α}
    (h : Cursor.Takes read F) (short : Nat → ε) : Accepts (field read short) F := by
  intro c after a
  rw [← h c after a, field]
  cases read c with
  | none => exact ⟨fun h => (nomatch h), fun h => (nomatch h)⟩
  | some taken => cases taken; simp

/-! ## Loops -/

theorem accepts_exactly_zero (F : WireForm α) :
    Accepts (ε := ε) (pure []) (Exactly 0 F) := by
  refine (accepts_pure ([] : List α)).congr (fun as bs => ⟨?_, ?_⟩)
  · rintro ⟨rfl, rfl⟩
    exact ⟨rfl, Sequence.nil⟩
  · rintro ⟨hlength, hsequence⟩
    cases List.eq_nil_of_length_eq_zero hlength
    cases hsequence
    exact ⟨rfl, rfl⟩

/-- **One turn of a loop**: one thing of a form and then as many as are
left. -/
theorem accepts_exactly_succ {read : Reader ε α} {more : Reader ε (List α)} {F : WireForm α}
    {n : Nat} (hread : read.Accepts F) (hmore : more.Accepts (Exactly n F)) :
    Accepts (do
      let a ← read
      let as ← more
      return a :: as) (Exactly (n + 1) F) := by
  refine (accepts_bind hread fun a => accepts_bind hmore fun as =>
    accepts_pure (a :: as)).congr (fun as bs => ⟨?_, ?_⟩)
  · rintro ⟨a, first, _, rfl, hF, as, second, _, rfl, ⟨hlength, hsequence⟩, rfl, rfl⟩
    rw [List.append_nil]
    exact ⟨by rw [List.length_cons, hlength], Sequence.cons hF hsequence⟩
  · rintro ⟨hlength, hsequence⟩
    cases hsequence with
    | nil => exact absurd hlength (Nat.succ_ne_zero n).symm
    | cons hF hrest =>
      exact ⟨_, _, _, rfl, hF, _, _, [], (List.append_nil _).symm,
        ⟨Nat.succ.inj hlength, hrest⟩, rfl, rfl⟩

theorem accepts_times {read : Reader ε α} {F : WireForm α} (hread : read.Accepts F) (n : Nat) :
    Accepts (times n read) (Exactly n F) := by
  induction n with
  | zero => exact accepts_exactly_zero F
  | succ n ih => exact accepts_exactly_succ hread ih

end Reader

/-! ## Single fields -/

namespace Cursor

theorem takes_u8? : Takes u8? (fun a bs => bs = [a]) := by
  rintro ⟨position, rest⟩ ⟨position', rest'⟩ a
  cases rest with
  | nil => simp [u8?]
  | cons b rest => simp [u8?, and_comm, and_assoc, eq_comm]

theorem takes_u16? : Takes u16? (fun n bs => bs = Octets.ofUInt16 n) := by
  rintro ⟨position, rest⟩ ⟨position', rest'⟩ n
  constructor
  · intro h
    match rest, h with
    | a :: b :: rest, h =>
      cases h
      exact ⟨[a, b], (Octets.ofUInt16_uint16 a b).symm, rfl, rfl⟩
  · rintro ⟨_, rfl, hrest, hposition⟩
    simp only at hrest hposition
    rw [hrest, u16?_ofUInt16, hposition, Octets.length_ofUInt16]

theorem takes_u32? : Takes u32? (fun n bs => bs = Octets.ofUInt32 n) := by
  rintro ⟨position, rest⟩ ⟨position', rest'⟩ n
  constructor
  · intro h
    match rest, h with
    | a :: b :: c :: d :: rest, h =>
      cases h
      exact ⟨[a, b, c, d], (Octets.ofUInt32_uint32 a b c d).symm, rfl, rfl⟩
  · rintro ⟨_, rfl, hrest, hposition⟩
    simp only at hrest hposition
    rw [hrest, u32?_ofUInt32, hposition, Octets.length_ofUInt32]

theorem takes_address? : Takes address? (fun x bs => bs = x.octets) := by
  rintro ⟨position, rest⟩ ⟨position', rest'⟩ x
  constructor
  · intro h
    match rest, h with
    | a :: b :: c :: d :: rest, h =>
      cases h
      exact ⟨[a, b, c, d], rfl, rfl, rfl⟩
  · rintro ⟨_, rfl, hrest, hposition⟩
    simp only at hrest hposition
    rw [hrest, hposition]
    rfl

end Cursor

end FlowTelemetry

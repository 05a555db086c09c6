import FlowTelemetry.Wire.Buffer

/-!
# The effect of a writer

On a buffer with room enough a writer does nothing but add octets at the end
and, possibly, fail after that. What it adds does not depend on what is there
already. An `Effect` is these two things.

A buffer with a limit can stop a writer at any of its appends, but it cannot
make it do anything else: the writer has then added the first octets of its
effect and fails for want of room. `Effect.Ending` lists these two ways to
end, and a writer *realises* an effect if it ends in one of them on every
buffer. Where there is no limit only the first is left, and the writer
*performs* the effect. Since a lack of room is one of the endings, writers
that are put together from others need not be asked about it again.

Effects are put together as writers are: one after the other, where a failure
keeps what was added before it (`Effect.seq`); all of a list
(`Effect.all`); and behind a length, where a failure keeps nothing
(`Effect.lengthPrefixed`). Padding is counted from where its stretch begins,
which is why it belongs to an effect of that stretch and not to one of its
own.

With a writer's effect known, the octets of what it writes can be argued
about as lists, and buffers need not be looked at any more.
-/

namespace FlowTelemetry

/-- **What a writer does to a buffer without a limit.** -/
structure Effect where
  /-- The octets it adds. -/
  added : Octets
  /-- The error it fails with after that, if it fails. -/
  failure : Option EncodeError
  deriving DecidableEq, Repr

namespace Effect

/-- Adds octets and succeeds. -/
def add (bs : Octets) : Effect := ⟨bs, none⟩

/-- Fails at once. -/
def fail (e : EncodeError) : Effect := ⟨[], some e⟩

/-- One effect and then another, unless the first one fails. -/
def seq (x y : Effect) : Effect :=
  match x.failure with
  | none => ⟨x.added ++ y.added, y.failure⟩
  | some _ => x

/-- One effect after the other, up to the first that fails. -/
def all : List Effect → Effect
  | [] => add []
  | x :: xs => x.seq (all xs)

/-- The effect with zeros up to a multiple of four octets after it. -/
def padded (x : Effect) : Effect := x.seq (add (Octets.wordPadding x.added.length))

/-- The effect with its length in front of it, or nothing but a failure. -/
def lengthPrefixed (x : Effect) : Effect :=
  match x.failure with
  | some e => fail e
  | none =>
    if x.added.length ≤ Writer.maxFieldLength then
      add (Octets.ofUInt16 (UInt16.ofNat x.added.length) ++ x.added)
    else fail .longData

theorem lengthPrefixed_of_failure {x : Effect} {e : EncodeError} (h : x.failure = some e) :
    x.lengthPrefixed = fail e := by
  rw [lengthPrefixed, h]

/-- What is too long for its length is not written at all. -/
theorem lengthPrefixed_of_lt {x : Effect} (h : x.failure = none)
    (hlong : Writer.maxFieldLength < x.added.length) : x.lengthPrefixed = fail .longData := by
  rw [lengthPrefixed, h]
  exact if_neg (Nat.not_le_of_lt hlong)

@[simp] theorem added_add (bs : Octets) : (add bs).added = bs := rfl

@[simp] theorem failure_add (bs : Octets) : (add bs).failure = none := rfl

theorem add_seq (bs : Octets) (y : Effect) :
    (add bs).seq y = ⟨bs ++ y.added, y.failure⟩ := rfl

@[simp] theorem add_seq_add (bs more : Octets) : (add bs).seq (add more) = add (bs ++ more) := rfl

theorem add_seq_add_seq (bs more : Octets) (y : Effect) :
    (add bs).seq ((add more).seq y) = (add (bs ++ more)).seq y := by
  rw [add_seq, add_seq, add_seq, List.append_assoc]

theorem add_injective {bs bs' : Octets} (h : add bs = add bs') : bs = bs' :=
  congrArg added h

/-- An effect that does not fail is known by its octets. -/
theorem eq_add_of_failure {x : Effect} (h : x.failure = none) : x = add x.added := by
  cases x
  cases h
  rfl

theorem all_map_add {α : Type} (f : α → Octets) (as : List α) :
    all (as.map fun a => add (f a)) = add (as.flatMap f) := by
  induction as with
  | nil => rfl
  | cons a as ih => rw [List.map_cons, all, ih, add_seq_add, List.flatMap_cons]

/-! ## Effects that do not fail

An effect put together from others does not fail only if none of these does,
and then its octets are theirs. -/

theorem seq_eq_add_iff {x y : Effect} {bs : Octets} :
    x.seq y = add bs ↔
      ∃ first second, x = add first ∧ y = add second ∧ bs = first ++ second := by
  constructor
  · intro h
    unfold seq at h
    split at h
    · next hx =>
      have hy : y.failure = none := congrArg failure h
      exact ⟨x.added, y.added, eq_add_of_failure hx, eq_add_of_failure hy,
        (congrArg added h).symm⟩
    · next e hx =>
      rw [h] at hx
      exact nomatch hx
  · rintro ⟨first, second, rfl, rfl, rfl⟩
    rfl

theorem padded_eq_add_iff {x : Effect} {bs : Octets} :
    x.padded = add bs ↔
      ∃ first, x = add first ∧ bs = first ++ Octets.wordPadding first.length := by
  unfold padded
  rw [seq_eq_add_iff]
  constructor
  · rintro ⟨first, second, rfl, h, rfl⟩
    exact ⟨first, rfl, by rw [← add_injective h, added_add]⟩
  · rintro ⟨first, rfl, rfl⟩
    exact ⟨first, _, rfl, rfl, rfl⟩

theorem lengthPrefixed_eq_add_iff {x : Effect} {bs : Octets} :
    x.lengthPrefixed = add bs ↔
      ∃ inner, x = add inner ∧ inner.length ≤ Writer.maxFieldLength ∧
        bs = Octets.ofUInt16 (UInt16.ofNat inner.length) ++ inner := by
  unfold lengthPrefixed
  constructor
  · intro h
    split at h
    · exact nomatch congrArg failure h
    · next hx =>
      split at h
      · next hlength =>
        exact ⟨x.added, eq_add_of_failure hx, hlength, (add_injective h).symm⟩
      · exact nomatch congrArg failure h
  · rintro ⟨inner, rfl, hlength, rfl⟩
    exact if_pos hlength

end Effect

/-! ## Writers and their effects -/

namespace Buffer

/-- The buffer with more octets at its end. -/
def extend (b : Buffer) (bs : Octets) : Buffer := { b with octets := b.octets ++ bs }

@[simp] theorem contents_extend (b : Buffer) (bs : Octets) :
    (b.extend bs).contents = b.contents ++ bs := by
  simp [extend, contents]

/-- Two buffers with the same octets and the same limit are the same. -/
theorem eq_of_contents {b b' : Buffer} (h : b.contents = b'.contents)
    (hlimit : b.limit = b'.limit) : b = b' := by
  cases b
  cases b'
  simp only [contents, Array.toList_inj] at h
  simp_all

@[simp] theorem extend_extend (b : Buffer) (bs more : Octets) :
    (b.extend bs).extend more = b.extend (bs ++ more) :=
  eq_of_contents (by simp) rfl

@[simp] theorem extend_nil (b : Buffer) : b.extend [] = b :=
  eq_of_contents (by simp) rfl

theorem extend_injective {b : Buffer} {bs more : Octets} (h : b.extend bs = b.extend more) :
    bs = more := by
  have hcontents := congrArg contents h
  rw [contents_extend, contents_extend] at hcontents
  exact List.append_cancel_left hcontents

@[simp] theorem size_extend (b : Buffer) (bs : Octets) :
    (b.extend bs).size = b.size + bs.length := by
  rw [← length_contents, contents_extend, List.length_append, length_contents]

/-- Going back to where the additions began undoes them. -/
theorem truncate_extend (b : Buffer) (bs : Octets) : (b.extend bs).truncate b.size = b := by
  refine eq_of_contents ?_ rfl
  rw [contents_truncate, contents_extend, ← length_contents, List.take_left]

/-- A number put over two octets that were added for it. -/
theorem patch_extend (b : Buffer) (x y : UInt8) (bs : Octets) (n : UInt16) :
    (b.extend (x :: y :: bs)).patch b.size n = b.extend (Octets.ofUInt16 n ++ bs) := by
  refine eq_of_contents ?_ rfl
  have h := contents_patch (b.extend (x :: y :: bs)) b.contents x y bs n (contents_extend _ _)
  rw [length_contents] at h
  rw [h, contents_extend, List.append_assoc]

/-! ### Room -/

/-- What has room for more octets has room for fewer. -/
theorem admits_of_le {b : Buffer} {m n : Nat} (h : b.admits n) (hle : m ≤ n) : b.admits m := by
  unfold admits at h ⊢
  cases hlimit : b.limit with
  | none => rfl
  | some limit =>
    rw [hlimit] at h
    exact decide_eq_true (Nat.le_trans hle (of_decide_eq_true h))

/-- Without a limit there is room for everything. -/
theorem admits_of_limit {b : Buffer} (h : b.limit = none) (n : Nat) : b.admits n := by
  rw [admits, h]

/-- A buffer has room for `n` octets behind others if it has room for all. -/
theorem admits_extend {b : Buffer} {bs : Octets} {n : Nat} :
    (b.extend bs).admits ((b.extend bs).size + n) ↔ b.admits (b.size + (bs.length + n)) := by
  rw [size_extend, Nat.add_assoc]
  rfl

end Buffer

/-- The buffer after an effect, and its success or failure. -/
def Effect.on (x : Effect) (b : Buffer) : EStateM.Result EncodeError Buffer Unit :=
  match x.failure with
  | none => .ok () (b.extend x.added)
  | some e => .error e (b.extend x.added)

theorem Effect.on_eq_ok_iff {x : Effect} {b after : Buffer} :
    x.on b = .ok () after ↔ x.failure = none ∧ b.extend x.added = after := by
  unfold on
  cases x.failure with
  | none => rw [EStateM.Result.ok.injEq, eq_self, eq_self, true_and]
  | some e => exact ⟨fun h => (nomatch h), fun h => (nomatch h.1)⟩

theorem Effect.on_eq_error_iff {x : Effect} {b after : Buffer} {e : EncodeError} :
    x.on b = .error e after ↔ x.failure = some e ∧ b.extend x.added = after := by
  unfold on
  cases x.failure with
  | none => exact ⟨fun h => (nomatch h), fun h => (nomatch h.1)⟩
  | some e' => rw [EStateM.Result.error.injEq, Option.some.injEq]

theorem Effect.add_seq_on (bs : Octets) (y : Effect) (b : Buffer) :
    ((add bs).seq y).on b = y.on (b.extend bs) := by
  unfold on seq
  obtain ⟨added, failure⟩ := y
  cases failure <;> simp only [added_add, failure_add, Buffer.extend_extend]

/-- **How an effect can end** on a buffer that may have a limit. Either there
is room for the whole of it, or it stops where there is not. -/
inductive Effect.Ending (x : Effect) (b : Buffer) (r : EStateM.Result EncodeError Buffer Unit) :
    Prop
  /-- There is room for all that the effect adds. -/
  | whole (room : b.admits (b.size + x.added.length)) (ends : r = x.on b)
  /-- There is room for the first octets only. An effect that fails in any case
  may stop early even though there is room for all that it leaves, because a
  stretch that is taken back in the end takes room until then. -/
  | short (kept more : Octets) (limited : b.limit ≠ none) (added : x.added = kept ++ more)
      (room : b.admits (b.size + kept.length))
      (lack : x.failure = none → ¬ b.admits (b.size + x.added.length))
      (ends : r = .error .shortBuffer (b.extend kept))

/-- **A writer realises an effect** if that is how it ends on every buffer that
has not outgrown its limit. -/
def Writer.Realises (w : Writer Unit) (x : Effect) : Prop :=
  ∀ b : Buffer, b.admits b.size → x.Ending b (w b)

/-- **A writer performs an effect**: it has this effect on every buffer that
has no limit. -/
def Writer.Performs (w : Writer Unit) (x : Effect) : Prop :=
  ∀ b : Buffer, b.limit = none → w b = x.on b

/-- An effect may stop before it has added anything. -/
theorem Effect.Ending.atOnce {x : Effect} {b : Buffer} (limited : b.limit ≠ none)
    (hb : b.admits b.size) (lack : x.failure = none → ¬ b.admits (b.size + x.added.length)) :
    x.Ending b (.error .shortBuffer b) :=
  .short [] x.added limited rfl hb lack (by rw [Buffer.extend_nil])

namespace Writer

/-- Without a limit there is only one ending. -/
theorem Realises.performs {w : Writer Unit} {x : Effect} (h : w.Realises x) : w.Performs x := by
  intro b hlimit
  cases h b (Buffer.admits_of_limit hlimit _) with
  | whole _ ends => exact ends
  | short _ _ limited => exact absurd hlimit limited

theorem realises_append (bs : Octets) : Realises (append bs) (Effect.add bs) := by
  intro b hb
  by_cases hroom : b.admits (b.size + bs.length)
  · exact .whole hroom (if_pos hroom)
  · rw [show append bs b = .error .shortBuffer b from if_neg hroom]
    exact .atOnce (fun hlimit => hroom (Buffer.admits_of_limit hlimit _)) hb (fun _ => hroom)

theorem realises_throw (e : EncodeError) : Realises (throw e) (Effect.fail e) := by
  refine fun b hb => .whole hb ?_
  show EStateM.Result.error e b = .error e (b.extend [])
  rw [Buffer.extend_nil]

/-- Nothing is done after a failure. -/
theorem realises_throw_seq (e : EncodeError) (w : Writer Unit) :
    Realises (do throw e; w) (Effect.fail e) :=
  realises_throw e

theorem realises_pure : Realises (pure ()) (Effect.add []) := by
  refine fun b hb => .whole hb ?_
  show EStateM.Result.ok () b = .ok () (b.extend [])
  rw [Buffer.extend_nil]

/-- One writer and then another on a single buffer. The second has to be
known only where the first leaves off, and only if it does not fail. -/
theorem seq_ending {w w' : Writer Unit} {x y : Effect} {b : Buffer} (hw : x.Ending b (w b))
    (hw' : x.failure = none → b.admits (b.size + x.added.length) →
      y.Ending (b.extend x.added) (w' (b.extend x.added))) :
    (x.seq y).Ending b ((do w; w' : Writer Unit) b) := by
  show (x.seq y).Ending b (EStateM.bind w (fun _ => w') b)
  unfold EStateM.bind
  obtain ⟨added, failure⟩ := x
  cases failure with
  | some e =>
    cases hw with
    | whole room ends =>
      rw [ends]
      exact .whole room rfl
    | short kept more limited hadded room _ ends =>
      rw [ends]
      exact .short kept more limited hadded room nofun rfl
  | none =>
    show ((Effect.add added).seq y).Ending b _
    rw [Effect.add_seq]
    cases hw with
    | whole room ends =>
      rw [ends]
      cases hw' rfl room with
      | whole room' ends' =>
        rw [Buffer.admits_extend, ← List.length_append] at room'
        exact .whole room' (ends'.trans (Effect.add_seq_on added y b).symm)
      | short kept more limited hadded room' lack ends' =>
        rw [Buffer.admits_extend, ← List.length_append] at room' lack
        refine .short (added ++ kept) more limited ?_ room' lack ?_
        · rw [hadded, List.append_assoc]
        · rw [← Buffer.extend_extend]
          exact ends'
    | short kept more limited hadded room lack ends =>
      rw [ends]
      refine .short kept (more ++ y.added) limited ?_ room (fun _ hroom => lack rfl ?_) rfl
      · rw [← List.append_assoc, ← hadded]
      · -- Where the first effect has no room, both together have none.
        refine Buffer.admits_of_le hroom (Nat.add_le_add_left ?_ _)
        rw [List.length_append]
        exact Nat.le_add_right _ _

/-- **One writer and then another.** -/
theorem realises_seq {w w' : Writer Unit} {x y : Effect} (hw : w.Realises x)
    (hw' : w'.Realises y) : Realises (do w; w') (x.seq y) := by
  intro b hb
  refine seq_ending (hw b hb) (fun _ room => hw' _ ?_)
  rw [Buffer.size_extend]
  exact room

theorem realises_forM {α : Type} {write : α → Writer Unit} {effect : α → Effect}
    (h : ∀ a, (write a).Realises (effect a)) (as : List α) :
    Realises (as.forM write) (Effect.all (as.map effect)) := by
  induction as with
  | nil => exact realises_pure
  | cons a as ih => exact realises_seq (h a) ih

/-- **Padding** is counted from where the padded writer began. -/
theorem realises_padded {w : Writer Unit} {x : Effect} (hw : w.Realises x) :
    Realises (do
      let start ← position
      w
      padToWord start) x.padded := by
  intro b hb
  show x.padded.Ending b ((do w; padToWord b.size : Writer Unit) b)
  refine seq_ending (hw b hb) (fun _ room => ?_)
  show Effect.Ending _ _
    (append (Octets.wordPadding ((b.extend x.added).size - b.size)) (b.extend x.added))
  rw [Buffer.size_extend, Nat.add_sub_cancel_left]
  refine realises_append _ _ ?_
  rw [Buffer.size_extend]
  exact room

/-- **A length and what it is the length of.** -/
theorem realises_lengthPrefixed {op : Writer Unit} {x : Effect} (hop : op.Realises x) :
    Realises (lengthPrefixed op) x.lengthPrefixed := by
  intro b hb
  obtain ⟨added, failure⟩ := x
  have hframed := realises_seq (realises_append [0, 0]) hop b hb
  rw [Effect.add_seq] at hframed
  have hnothing : ∀ e, (Effect.fail e).Ending b (.error e b) := by
    refine fun e => .whole hb ?_
    show _ = EStateM.Result.error e (b.extend [])
    rw [Buffer.extend_nil]
  unfold lengthPrefixed
  cases hframed with
  | whole room ends =>
    simp only [ends, Effect.on, Effect.lengthPrefixed]
    cases failure with
    | some e =>
      dsimp only
      rw [Buffer.truncate_extend]
      exact hnothing e
    | none =>
      -- The length is counted behind the two octets that hold its place.
      have hlength : (b.extend ([0, 0] ++ added)).size - (b.size + 2) = added.length := by
        rw [Buffer.size_extend, List.length_append, ← Nat.add_assoc]
        exact Nat.add_sub_cancel_left ..
      simp only [hlength]
      by_cases hfits : added.length ≤ maxFieldLength
      · rw [if_pos hfits, if_pos hfits]
        refine .whole room ?_
        show EStateM.Result.ok () ((b.extend (0 :: 0 :: added)).patch b.size _) = _
        rw [Buffer.patch_extend]
        rfl
      · rw [if_neg hfits, if_neg hfits, Buffer.truncate_extend]
        exact hnothing .longData
  | short kept more limited _ _ lack ends =>
    simp only [ends, Buffer.truncate_extend]
    refine .atOnce limited hb fun hsucceeds hroom => ?_
    -- A length that can be written takes up the room of its placeholder.
    obtain ⟨inner, hinner, -, hadded⟩ :=
      Effect.lengthPrefixed_eq_add_iff.mp (Effect.eq_add_of_failure hsucceeds)
    cases hinner
    rw [hadded] at hroom
    exact lack rfl hroom

/-- What is written into an empty buffer is what the effect adds. -/
theorem toOctets_eq_ok_iff {w : Writer Unit} {x : Effect} (hw : w.Performs x) {bs : Octets} :
    toOctets w = .ok bs ↔ x = Effect.add bs := by
  unfold toOctets
  rw [hw (Buffer.empty none) rfl]
  obtain ⟨added, failure⟩ := x
  cases failure with
  | none =>
    show Except.ok ((Buffer.empty none).extend added).contents = .ok bs ↔ _
    rw [Buffer.contents_extend, Buffer.contents_empty, List.nil_append, Except.ok.injEq]
    exact ⟨fun h => congrArg Effect.add h, fun h => Effect.add_injective h⟩
  | some e => exact ⟨fun h => (nomatch h), fun h => (nomatch congrArg Effect.failure h)⟩

end Writer

end FlowTelemetry

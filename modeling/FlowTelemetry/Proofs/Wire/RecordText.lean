import FlowTelemetry.Proofs.Network.Dotted
import FlowTelemetry.Wire.Record

/-!
# Records as they are shown

The text of a record is a line of two or three parts with blanks between them: the
client, the names, and the addresses if there are any. The names are one part, and
so are the addresses, with commas between them. Nothing in the text says which part
is which, or how many names there are, but for the blanks and commas themselves.

A name is what a sender made it, and may have blanks and commas of its own. An
*ordinary* record has none in its names, and it has a name. Such a record can be
read off its text, and no other record can (`Record.ofText?_text_eq_some_iff`). Its
names may be anything else: they may be empty, the root, or look like an address.
An address among the names is still in the second part, and an empty name still
counts, because it is between two commas or is the only one. It is for the last of
these that there has to be a name, since no names are shown like a single empty
one.
-/

namespace FlowTelemetry

/-- A name without blanks and commas, which is what stands between names and parts. -/
def Name.Ordinary (name : String) : Prop := ' ' ∉ name.toList ∧ ',' ∉ name.toList

instance : DecidablePred Name.Ordinary := fun _ => instDecidableAnd

namespace Record

/-- **A record that can be told from its text**: it has names, and these have no
blanks and commas in them. -/
structure Ordinary (r : Record) : Prop where
  named : r.names ≠ []
  ordinary : ∀ name ∈ r.names, Name.Ordinary name

instance : DecidablePred Ordinary := fun r =>
  decidable_of_iff (r.names ≠ [] ∧ ∀ name ∈ r.names, Name.Ordinary name)
    ⟨fun h => ⟨h.1, h.2⟩, fun h => ⟨h.named, h.ordinary⟩⟩

/-! ## The parts of a text -/

/-- The part with the addresses, which is not there without addresses. -/
def addressPart : List Address → List (List Char)
  | [] => []
  | addresses => [joined (addresses.map Address.chars)]

/-- The parts of the text of a record. -/
def parts (r : Record) : List (List Char) :=
  r.client.chars :: joined (r.names.map String.toList) :: addressPart r.addresses

theorem chars_eq_joined_parts (r : Record) : r.chars = [' '].intercalate r.parts := by
  unfold chars parts
  cases r.addresses with
  | nil => simp [addressPart, List.intercalate_cons_cons]
  | cons first others => simp [addressPart, List.intercalate_cons_cons]

/-- There are no blanks among addresses. -/
theorem blank_notMem_addressPart {addresses : List Address} :
    ∀ part ∈ addressPart addresses, ' ' ∉ part := by
  cases addresses with
  | nil => exact nofun
  | cons first others =>
    refine List.forall_mem_singleton.mpr (notMem_intercalate (by decide) ?_)
    exact List.forall_mem_map.mpr fun x _ => x.notMem_chars (by decide)

/-- **The blanks show where the parts are**, if there are none in the names. -/
theorem pieces_chars {r : Record} (h : ∀ name ∈ r.names, ' ' ∉ name.toList) :
    pieces ' ' r.chars = r.parts := by
  have hnames : ' ' ∉ joined (r.names.map String.toList) :=
    notMem_intercalate (by decide) (List.forall_mem_map.mpr h)
  have hparts : ∀ part ∈ r.parts, ' ' ∉ part := List.forall_mem_cons.mpr
    ⟨r.client.notMem_chars (by decide),
      List.forall_mem_cons.mpr ⟨hnames, blank_notMem_addressPart⟩⟩
  rw [chars_eq_joined_parts]
  exact pieces_intercalate (List.cons_ne_nil _ _) hparts

/-! ## Reading the text of a record -/

/-- The address with the given characters. -/
def address? (cs : List Char) : Option Address := Address.parse? (String.ofList cs)

/-- The addresses in the parts behind the names. -/
def addresses? : List (List Char) → Option (List Address)
  | [] => some []
  | [part] => (pieces ',' part).mapM address?
  | _ => none

/-- The names in a part. -/
def namesOf (part : List Char) : List String := (pieces ',' part).map String.ofList

/-- The record with the given text. -/
def ofText? (text : String) : Option Record :=
  match pieces ' ' text.toList with
  | client :: names :: others => do
    return { client := ← address? client, names := namesOf names, addresses := ← addresses? others }
  | _ => none

theorem address?_chars (x : Address) : address? x.chars = some x := by
  rw [address?, ← Address.text, Address.parse?_text]

theorem mapM_address?_chars (addresses : List Address) :
    (addresses.map Address.chars).mapM address? = some addresses := by
  induction addresses with
  | nil => rfl
  | cons x addresses ih =>
    rw [List.map_cons, List.mapM_cons, address?_chars, ih]
    rfl

/-- **Addresses read back from their part**, or from its absence. -/
theorem addresses?_addressPart (addresses : List Address) :
    addresses? (addressPart addresses) = some addresses := by
  cases addresses with
  | nil => rfl
  | cons first others =>
    have hcommas : ∀ part ∈ (first :: others).map Address.chars, ',' ∉ part :=
      List.forall_mem_map.mpr fun x _ => x.notMem_chars (by decide)
    have hcut : pieces ',' (joined ((first :: others).map Address.chars)) =
        (first :: others).map Address.chars := pieces_intercalate (List.cons_ne_nil _ _) hcommas
    show (pieces ',' (joined ((first :: others).map Address.chars))).mapM address? = _
    rw [hcut]
    exact mapM_address?_chars (first :: others)

/-- **Names read back from their part** if there are names, and no commas in
them. -/
theorem namesOf_joined {names : List String} (hne : names ≠ [])
    (h : ∀ name ∈ names, ',' ∉ name.toList) :
    namesOf (joined (names.map String.toList)) = names := by
  have hcut : pieces ',' (joined (names.map String.toList)) = names.map String.toList :=
    pieces_intercalate (mt List.map_eq_nil_iff.mp hne) (List.forall_mem_map.mpr h)
  rw [namesOf, hcut, List.map_map]
  exact (List.map_congr_left fun name _ => String.ofList_toList).trans (List.map_id names)

/-- **An ordinary record reads back from its text.** -/
theorem ofText?_text {r : Record} (h : r.Ordinary) : ofText? r.text = some r := by
  have hparts : pieces ' ' r.text.toList = r.parts := by
    rw [text, String.toList_ofList, pieces_chars fun name hname => (h.ordinary name hname).1]
  have hnames : namesOf (joined (r.names.map String.toList)) = r.names :=
    namesOf_joined h.named fun name hname => (h.ordinary name hname).2
  rw [ofText?, hparts]
  simp only [parts, address?_chars, hnames, addresses?_addressPart]
  rfl

/-- **What is read is ordinary**, because names are cut out between blanks and
commas. -/
theorem ordinary_of_ofText? {text : String} {r : Record} (h : ofText? text = some r) :
    r.Ordinary := by
  unfold ofText? at h
  split at h
  · next client names others hparts =>
    simp only [Option.bind_eq_bind, Option.bind_eq_some_iff, Option.pure_def,
      Option.some.injEq] at h
    obtain ⟨_, -, _, -, rfl⟩ := h
    have hblank : ' ' ∉ names :=
      separator_notMem_of_mem_pieces (hparts ▸ List.mem_cons_of_mem _ List.mem_cons_self)
    refine ⟨mt List.map_eq_nil_iff.mp (pieces_ne_nil _ _), List.forall_mem_map.mpr ?_⟩
    intro piece hpiece
    rw [Name.Ordinary, String.toList_ofList]
    exact ⟨fun hc => hblank ((sublist_flatten_pieces ',' names).subset
      (List.mem_flatten_of_mem hpiece hc)), separator_notMem_of_mem_pieces hpiece⟩
  · exact nomatch h

/-- **Exactly ordinary records can be read off their text.** -/
theorem ofText?_text_eq_some_iff {r : Record} : ofText? r.text = some r ↔ r.Ordinary :=
  ⟨ordinary_of_ofText?, ofText?_text⟩

/-- Without names a record is shown as with a single empty one. -/
example (client : Address) (addresses : List Address) :
    text ⟨client, [], addresses⟩ = text ⟨client, [""], addresses⟩ := rfl

/-- **Ordinary records are told apart by their texts.** -/
theorem text_eq_text_iff {r s : Record} (hr : r.Ordinary) (hs : s.Ordinary) :
    r.text = s.text ↔ r = s := by
  refine ⟨fun h => ?_, congrArg text⟩
  have hread : some r = some s :=
    calc some r
      _ = ofText? r.text := (ofText?_text_eq_some_iff.mpr hr).symm
      _ = ofText? s.text := congrArg ofText? h
      _ = some s := ofText?_text_eq_some_iff.mpr hs
  exact Option.some.inj hread

/-- An address that is a name is not shown as an address, not even behind an empty
name. -/
theorem text_ne_text_of_lookalike :
    let r : Record := ⟨⟨10, 0, 0, 1⟩, ["", "192.0.2.1"], []⟩
    let s : Record := ⟨⟨10, 0, 0, 1⟩, [""], [⟨192, 0, 2, 1⟩]⟩
    r.Ordinary ∧ s.Ordinary ∧ r.text ≠ s.text := by
  intro r s
  have hr : r.Ordinary := by decide
  have hs : s.Ordinary := by decide
  exact ⟨hr, hs, mt (text_eq_text_iff hr hs).mp (by decide)⟩

end Record

end FlowTelemetry

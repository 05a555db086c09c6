import FlowTelemetry.Time.Timestamp
import Mathlib.Algebra.Ring.Nat

/-!
# Time that goes forwards takes some seconds

A rate is a quotient by the seconds of a duration, and these are a floating
point number. They are worked out in four steps, each of which rounds: the
complete seconds and the nanoseconds beside them are converted, the latter are
divided, and both are added. It has to be seen that nothing is rounded to zero
on the way.

It would have to get as low as `2 ^ -1074` for that. `Reaches` says how far
above this a number stays: its mantissa has all of its 53 bits, and the last of
them is worth at least some power of two. Rounding such a number cannot lose
it, and `roundWithAccuracy_reaches` says so once for all operations. What is
left to say of an operation is how much of the exponent it costs. An overflow
does no harm, for infinity is positive too.
-/

namespace FlowTelemetry

open Float.Model Float.Model.UnpackedFloat

namespace Binary64

/-- **A positive number that stays above a power of two**: it has a full
mantissa whose last bit is worth at least that, or is infinite. -/
inductive Reaches (least : Int) : Float.Model.UnpackedFloat → Prop
  | finite {m : Nat} {e : Int} (pos : 0 < m) (full : 2 ^ 52 ≤ m) (lt : m < 2 ^ 53)
      (le : least ≤ e) : Reaches least (.finite .positive m e pos)
  | infinity : Reaches least (.infinity .positive)

theorem Reaches.mono {least lower : Int} {x : Float.Model.UnpackedFloat} (h : Reaches least x)
    (hlower : lower ≤ least) : Reaches lower x := by
  cases h with
  | finite pos full lt le => exact .finite pos full lt (Int.le_trans hlower le)
  | infinity => exact .infinity

/-- A full mantissa has its highest bit in one place. -/
theorem log2_eq {m : Nat} (hfull : 2 ^ 52 ≤ m) (hlt : m < 2 ^ 53) : m.log2 = 52 := by
  have hm : m ≠ 0 := by omega
  have hle := (Nat.le_log2 hm).mpr hfull
  have hge := (Nat.log2_lt hm).mpr hlt
  omega

/-! ## Rounding -/

theorem targetExponent_eq (m : Nat) (e : Int) :
    Format.binary64.targetExponent (totalExponent m e) = max (m.log2 + e - 52) (-1074) := by
  have hleast : Format.binary64.minExponent = -1074 := rfl
  have hbits : Format.binary64.mantissaBits = 53 := rfl
  unfold Format.targetExponent totalExponent
  rw [hleast, hbits]
  omega

theorem mantissa_shiftRight (x : ExtendedMantissa) (k : Nat) :
    (x >>> k).mantissa = x.mantissa / 2 ^ k := by
  induction k with
  | zero => exact (Nat.div_one _).symm
  | succ k ih =>
    show (x >>> k).mantissa / 2 = _
    rw [ih, Nat.div_div_eq_div_mul, Nat.pow_succ]

theorem mantissa_ofMantissaAndAccuracy (m : Nat) (accuracy : Accuracy) :
    (ExtendedMantissa.ofMantissaAndAccuracy m accuracy).mantissa = m := by
  cases accuracy with
  | exact => rfl
  | inexact half => cases half <;> rfl

/-- A mantissa is only ever rounded up. What is below it was cut off before. -/
theorem le_roundedMantissa (x : ExtendedMantissa) : x.mantissa ≤ x.roundedMantissa := by
  obtain ⟨m, half, rest⟩ := x
  cases half <;> cases rest
  · exact Nat.le_refl _
  · exact Nat.le_refl _
  · exact Nat.le_add_right _ _
  · exact Nat.le_add_right _ _

/-- As many bits are shifted out as there are too many. -/
theorem shiftToTargetExponent_eq {m : Nat} {e : Int} (hm : 2 ^ 52 ≤ m) (he : -1074 ≤ e)
    (accuracy : Accuracy) :
    shiftToTargetExponent Format.binary64 m e accuracy =
      (ExtendedMantissa.ofMantissaAndAccuracy m accuracy >>> (m.log2 - 52),
        e + (m.log2 - 52 : Nat)) := by
  have hlog : 52 ≤ m.log2 := (Nat.le_log2 (by omega)).mpr hm
  have hamount : (max ((m.log2 : Int) + e - 52) (-1074) - e).toNat = m.log2 - 52 := by omega
  unfold shiftToTargetExponent shiftToExponent
  rw [targetExponent_eq]
  exact congrArg
    (fun amount : Nat =>
      (ExtendedMantissa.ofMantissaAndAccuracy m accuracy >>> amount, e + (amount : Int))) hamount

/-- What is left is full again. -/
theorem div_two_pow_log2 {m : Nat} (hm : 2 ^ 52 ≤ m) :
    2 ^ 52 ≤ m / 2 ^ (m.log2 - 52) ∧ m / 2 ^ (m.log2 - 52) < 2 ^ 53 := by
  have hm0 : m ≠ 0 := by omega
  have hlog : 52 ≤ m.log2 := (Nat.le_log2 hm0).mpr hm
  constructor
  · rw [Nat.le_div_iff_mul_le (Nat.two_pow_pos _), ← Nat.pow_add, Nat.add_sub_cancel' hlog]
    exact Nat.log2_self_le hm0
  · rw [Nat.div_lt_iff_lt_mul (Nat.two_pow_pos _), ← Nat.pow_add,
      show 53 + (m.log2 - 52) = m.log2 + 1 by omega]
    exact Nat.lt_log2_self

/-- **Rounding does not lower a number that has enough bits.** They are shifted
twice, for rounding up may make one too many, and the exponent grows each
time. -/
theorem roundWithAccuracy_reaches {m : Nat} {e least : Int} (hm : 2 ^ 52 ≤ m) (he : least ≤ e)
    (hleast : -1074 ≤ least) (accuracy : Accuracy) :
    Reaches least (roundWithAccuracy Format.binary64 .positive m e accuracy) := by
  unfold roundWithAccuracy
  rw [shiftToTargetExponent_eq hm (by omega)]
  dsimp only
  generalize hx : ExtendedMantissa.ofMantissaAndAccuracy m accuracy >>> (m.log2 - 52) = x
  have hrounded : 2 ^ 52 ≤ x.roundedMantissa := by
    refine Nat.le_trans ?_ (le_roundedMantissa x)
    rw [← hx, mantissa_shiftRight, mantissa_ofMantissaAndAccuracy]
    exact (div_two_pow_log2 hm).1
  rw [shiftToTargetExponent_eq hrounded (by omega)]
  dsimp only
  have hmantissa : (ExtendedMantissa.ofMantissaAndAccuracy x.roundedMantissa .exact >>>
      (x.roundedMantissa.log2 - 52)).mantissa =
        x.roundedMantissa / 2 ^ (x.roundedMantissa.log2 - 52) := by
    rw [mantissa_shiftRight, mantissa_ofMantissaAndAccuracy]
  obtain ⟨hfull, hlt⟩ := div_two_pow_log2 hrounded
  rw [← hmantissa] at hfull hlt
  rw [dif_neg (by omega)]
  exact .finite _ hfull hlt (by omega)

/-- A number with any bits at all is first given enough of them. -/
theorem round_reaches {m : Nat} {e least : Int} (hm : 0 < m) (he : least + 52 ≤ e)
    (hleast : -1074 ≤ least) :
    Reaches least (UnpackedFloat.round Format.binary64 .positive m e) := by
  unfold UnpackedFloat.round decreaseExponent
  simp only
  rw [targetExponent_eq]
  have hlow := Nat.log2_self_le (Nat.ne_of_gt hm)
  refine roundWithAccuracy_reaches ?_ (by omega) hleast _
  rw [Nat.shiftLeft_eq]
  calc 2 ^ 52 ≤ 2 ^ (m.log2 + (e - max ((m.log2 : Int) + e - 52) (-1074)).toNat) :=
        Nat.pow_le_pow_right (by decide) (by omega)
    _ = 2 ^ m.log2 * 2 ^ (e - max ((m.log2 : Int) + e - 52) (-1074)).toNat := Nat.pow_add ..
    _ ≤ m * 2 ^ (e - max ((m.log2 : Int) + e - 52) (-1074)).toNat := Nat.mul_le_mul_right _ hlow

theorem normalize_reaches {m : Nat} {e least : Int} (hm : 0 < m) (he : least + 52 ≤ e)
    (hleast : -1074 ≤ least) :
    Reaches least (UnpackedFloat.normalize Format.binary64 m e .positive) := by
  unfold UnpackedFloat.normalize
  rw [Int.compare_eq_gt.mpr (Int.natCast_pos.mpr hm)]
  exact round_reaches hm he hleast

/-! ## Packing -/

theorem unpackSign_packComponents {spec : Format} (sign : Sign)
    (exponent : BitVec spec.exponentBits) (mantissa : BitVec spec.mantissaBitsWithoutImplicit) :
    unpackSign (packComponents spec sign exponent mantissa) = sign.toBitVec := by
  show ((sign.toBitVec ++ exponent ++ mantissa).extractLsb _ _).cast _ = sign.toBitVec
  ext i hi
  obtain rfl : i = 0 := by omega
  simp [BitVec.getLsbD_append, BitVec.getElem_append]

/-- The highest bit of a full mantissa is not stored and comes back. -/
theorem toNat_append_ofNat {m : Nat} (hfull : 2 ^ 52 ≤ m) (hlt : m < 2 ^ 53) :
    (1#1 ++ BitVec.ofNat 52 m).toNat = m := by
  rw [BitVec.toNat_append, ← Nat.shiftLeft_add_eq_or_of_lt (BitVec.isLt _)]
  show 2 ^ 52 + m % 2 ^ 52 = m
  omega

/-- **A number survives being stored**, unless it is too large and becomes
infinite. -/
theorem unpack_pack_reaches {least : Int} {x : Float.Model.UnpackedFloat} (h : Reaches least x)
    (hleast : -1074 ≤ least) : Reaches least (Float.Model.pack x).unpack := by
  cases h with
  | infinity => exact .infinity
  | @finite m e pos hfull hlt hle =>
    have hbits : m.log2 + 1 = 53 := by rw [log2_eq hfull hlt]
    obtain ⟨biased, hbiased⟩ : ∃ biased : Nat, e + 1023 + 52 = biased :=
      ⟨_, (Int.toNat_of_nonneg (by omega)).symm⟩
    show Reaches least (UnpackedFloat.unpack Format.binary64
      (if 2 ^ 11 ≤ (e + 1023 + 52).toNat + 1 then packedInfinity Format.binary64 .positive
        else if m.log2 + 1 = 53 then
          packComponents Format.binary64 .positive (BitVec.ofNat 11 (e + 1023 + 52).toNat)
            (BitVec.ofNat 52 m)
        else packComponents Format.binary64 .positive 0#11 (BitVec.ofNat 52 m)))
    rw [hbiased, Int.toNat_natCast, if_pos hbits]
    split
    · exact .infinity
    · next hsmall =>
      have hexponent : (BitVec.ofNat 11 biased).toNat = biased := by
        rw [BitVec.toNat_ofNat, Nat.mod_eq_of_lt (by omega)]
      -- Neither of the exponents that are set aside for other numbers is used.
      have hones : BitVec.ofNat 11 biased ≠ -1#11 := by
        intro h
        have : biased = 2047 := hexponent.symm.trans (congrArg BitVec.toNat h)
        omega
      have hzeros : BitVec.ofNat 11 biased ≠ 0#11 := by
        intro h
        have : biased = 0 := hexponent.symm.trans (congrArg BitVec.toNat h)
        omega
      have hmantissa := toNat_append_ofNat hfull hlt
      generalize hb : packComponents Format.binary64 .positive (BitVec.ofNat 11 biased)
        (BitVec.ofNat 52 m) = b
      have hb₁ : unpackExponent b = BitVec.ofNat 11 biased := hb ▸ unpackExponent_packComponents
      have hb₂ : unpackMantissa b = BitVec.ofNat 52 m := hb ▸ unpackMantissa_packComponents
      have hb₃ : Sign.ofBitVec (unpackSign b) = .positive := by
        rw [← hb, unpackSign_packComponents]
        rfl
      unfold UnpackedFloat.unpack
      dsimp only
      rw [if_neg (hb₁ ▸ hones), if_neg (hb₁ ▸ hzeros), hb₃]
      refine .finite _ ?_ ?_ ?_
      · rw [hb₂, hmantissa]
        exact hfull
      · rw [hb₂, hmantissa]
        exact hlt
      · rw [hb₁, hexponent]
        show least ≤ (biased : Int) - (1023 + 52)
        omega

/-! ## Arithmetic -/

theorem mul_reaches {first second : Int} {x y : Float.Model.UnpackedFloat}
    (hx : Reaches first x) (hy : Reaches second y) (hleast : -1074 ≤ first + second) :
    Reaches (first + second) (UnpackedFloat.mul Format.binary64 x y) := by
  cases hx with
  | infinity => cases hy <;> exact .infinity
  | finite hm hfull _ hle =>
    cases hy with
    | infinity => exact .infinity
    | finite hm' _ _ hle' =>
      have hproduct := Nat.le_trans hfull (Nat.le_mul_of_pos_right _ hm')
      exact roundWithAccuracy_reaches hproduct (by omega) hleast _

theorem add_reaches {least : Int} {x y : Float.Model.UnpackedFloat}
    (hx : Reaches least x) (hy : Reaches least y) (hleast : -1074 ≤ least - 52) :
    Reaches (least - 52) (UnpackedFloat.add Format.binary64 x y) := by
  cases hx with
  | infinity => cases hy <;> exact .infinity
  | @finite m e hm _ _ hle =>
    cases hy with
    | infinity => exact .infinity
    | @finite m' e' _ _ _ hle' =>
      have hpos : 0 < m <<< (e - min e e').toNat + m' <<< (e' - min e e').toNat := by
        rw [Nat.shiftLeft_eq]
        exact Nat.add_pos_left (Nat.mul_pos hm (Nat.two_pow_pos _)) _
      exact normalize_reaches hpos (by omega) hleast

theorem zero_add_of_reaches {least : Int} {y : Float.Model.UnpackedFloat} (hy : Reaches least y) :
    UnpackedFloat.add Format.binary64 (.zero .positive) y = y := by
  cases hy <;> rfl

theorem add_zero_of_reaches {least : Int} {x : Float.Model.UnpackedFloat} (hx : Reaches least x) :
    UnpackedFloat.add Format.binary64 x (.zero .positive) = x := by
  cases hx <;> rfl

/-- The quotient of two full mantissas is worked out with 53 bits more. -/
theorem div_reaches {least e : Int} {x : Float.Model.UnpackedFloat} (hx : Reaches least x)
    {m : Nat} (hm : 0 < m) (hfull : 2 ^ 52 ≤ m) (hlt : m < 2 ^ 53)
    (hleast : -1074 ≤ least - e - 53) :
    Reaches (least - e - 53) (UnpackedFloat.div Format.binary64 x (.finite .positive m e hm)) := by
  cases hx with
  | infinity => exact .infinity
  | @finite n f hn hfull' hlt' hle =>
    have htarget : min (f - e)
        (Format.binary64.targetExponent (totalExponent n f - totalExponent m e)) = f - e - 53 := by
      have hminimum : Format.binary64.minExponent = -1074 := rfl
      have hbits : Format.binary64.mantissaBits = 53 := rfl
      unfold Format.targetExponent totalExponent
      rw [log2_eq hfull hlt, log2_eq hfull' hlt', hminimum, hbits]
      omega
    have hquotient : 2 ^ 52 ≤ n <<< 53 / m := by
      rw [Nat.shiftLeft_eq, Nat.le_div_iff_mul_le hm]
      omega
    unfold UnpackedFloat.div divCore
    simp only
    rw [htarget, show (f - e - (f - e - 53)).toNat = 53 by omega]
    exact roundWithAccuracy_reaches hquotient (by omega) hleast _

/-- A number that reaches anything is positive. -/
theorem pos_of_reaches {least : Int} {x : Float} (h : Reaches least x.toModel.unpack) :
    0 < x := by
  have hzero : (0 : Float).toModel.unpack = .zero .positive := rfl
  have hlt : UnpackedFloat.lt (0 : Float).toModel.unpack x.toModel.unpack = true := by
    rw [hzero]
    generalize x.toModel.unpack = y at h
    cases h <;> rfl
  exact decide_eq_true hlt

/-! ## Integers -/

theorem unpack_ofNat_reaches {n : Nat} (hn : 0 < n) :
    Reaches (-52) (Float.Model.ofNat n).unpack :=
  unpack_pack_reaches (normalize_reaches hn (by decide) (by decide)) (by decide)

/-- Small numbers are converted as machine words and multiplied by one, and
large ones by shifting them. -/
theorem ofNat_reaches {n : Nat} (hn : 0 < n) :
    Reaches (-104) (Float.ofNat n).toModel.unpack := by
  show Reaches (-104) (Float.ofScientific n false 0).toModel.unpack
  unfold Float.ofScientific
  split
  · next hsmall =>
    have hword : n.toUInt64.toNat = n :=
      UInt64.toNat_ofNat_of_lt' (Nat.lt_trans hsmall.1 (by decide))
    have hexact : Reaches (-52) n.toUInt64.toFloat.toModel.unpack := by
      show Reaches (-52) (Float.Model.ofNat n.toUInt64.toNat).unpack
      rw [hword]
      exact unpack_ofNat_reaches hn
    have hone : (Float.Model.ofBits 0x3FF0000000000000).unpack =
        .finite .positive (2 ^ 52) (-52) (by decide) := rfl
    have hfactor : Reaches (-52) (Float.Model.ofBits 0x3FF0000000000000).unpack := by
      rw [hone]
      exact .finite _ (by decide) (by decide) (by decide)
    exact unpack_pack_reaches (mul_reaches hexact hfactor (by decide)) (by decide)
  · refine unpack_pack_reaches ?_ (by decide)
    have hshifted : 2 ^ 52 ≤ n <<< Format.binary64.mantissaBits * 10 ^ (0 : Int).toNat := by
      rw [Nat.shiftLeft_eq, show Format.binary64.mantissaBits = 53 from rfl]
      show 2 ^ 52 ≤ n * 2 ^ 53 * 1
      omega
    have hscale : ¬ (0 : Int) < -((2 ^ Format.binary64.exponentBits : Int) + n.log2) := by
      rw [show (2 ^ Format.binary64.exponentBits : Int) = 2048 from rfl]
      omega
    show Reaches (-104) (UnpackedFloat.ofScientific Format.binary64 n 0)
    unfold UnpackedFloat.ofScientific
    rw [dif_neg (Nat.ne_of_gt hn), if_neg (by decide), if_neg hscale, if_pos (by decide)]
    unfold UnpackedFloat.mul
    exact roundWithAccuracy_reaches hshifted (by decide) (by decide) _

theorem ofInt_reaches {n : Int} (hn : 0 < n) :
    Reaches (-104) (Float.ofInt n).toModel.unpack := by
  obtain ⟨n, rfl⟩ := Int.eq_ofNat_of_zero_le (Int.le_of_lt hn)
  exact ofNat_reaches (Int.natCast_pos.mp hn)

theorem unpack_ofInt_zero : (Float.ofInt 0).toModel.unpack = .zero .positive := rfl

theorem div_nanosPerSecond_reaches {n : Int} (hn : 0 < n) :
    Reaches (-134) (Float.ofInt n / Float.ofInt nanosPerSecond).toModel.unpack := by
  have hnanos : (Float.ofInt nanosPerSecond).toModel.unpack =
      .finite .positive 8388608000000000 (-23) (by decide) := rfl
  refine unpack_pack_reaches ?_ (by decide)
  rw [hnanos]
  exact @div_reaches (-104) (-23) _ (ofInt_reaches hn) 8388608000000000 (by decide) (by decide)
    (by decide) (by decide)

theorem unpack_div_nanosPerSecond_zero :
    (Float.ofInt 0 / Float.ofInt nanosPerSecond).toModel.unpack = .zero .positive := rfl

end Binary64

open Binary64

/-- **A duration that goes forwards takes a positive number of seconds**,
however short or long it is. -/
theorem Duration.seconds_pos {d : Duration} (h : 0 < d.nanoseconds) : 0 < d.seconds := by
  have hsum : nanosPerSecond * d.wholeSeconds + d.subseconds = d.nanoseconds :=
    Int.mul_tdiv_add_tmod d.nanoseconds nanosPerSecond
  have hwhole : 0 ≤ d.wholeSeconds := Int.tdiv_nonneg (Int.le_of_lt h) (by decide)
  have hrest : 0 ≤ d.subseconds := Int.tmod_nonneg _ (Int.le_of_lt h)
  unfold Duration.seconds
  generalize d.wholeSeconds = whole at *
  generalize d.subseconds = rest at *
  have hpos : Reaches (-186) (UnpackedFloat.add Format.binary64 (Float.ofInt whole).toModel.unpack
      (Float.ofInt rest / Float.ofInt nanosPerSecond).toModel.unpack) := by
    rcases Int.lt_or_eq_of_le hwhole with hwhole | rfl
    · have hx := ofInt_reaches hwhole
      rcases Int.lt_or_eq_of_le hrest with hrest | rfl
      · exact add_reaches (hx.mono (by decide)) (div_nanosPerSecond_reaches hrest) (by decide)
      · rw [unpack_div_nanosPerSecond_zero, add_zero_of_reaches hx]
        exact hx.mono (by decide)
    · have hy := div_nanosPerSecond_reaches (show 0 < rest by omega)
      rw [unpack_ofInt_zero, zero_add_of_reaches hy]
      exact hy.mono (by decide)
  exact pos_of_reaches (unpack_pack_reaches hpos (by decide))

end FlowTelemetry

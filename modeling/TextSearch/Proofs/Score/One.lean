import Mathlib
import TextSearch.Proofs.Score.Exact

/-!
# One as a factor

A number of 32 bits that is multiplied by one is left as it is, bit by bit: `Single.one_mul`. Its
mantissa is multiplied by a power of two and its exponent lowered by as much, and rounding takes
that back, as the exponent of a stored number is the one that its mantissa calls for.
-/

namespace TextSearch

open Float.Model (Format UnpackedFloat totalExponent)
open Float.Model.UnpackedFloat

namespace Single

/-! ### Rounding what is exact -/

theorem shiftRight_exact (mantissa n : Nat) :
    (⟨2 ^ n * mantissa, false, false⟩ : ExtendedMantissa) >>> n = ⟨mantissa, false, false⟩ := by
  induction n generalizing mantissa with
  | zero => exact congrArg (ExtendedMantissa.mk · false false) (Nat.one_mul mantissa)
  | succ n ih =>
    have hn := ih (2 * mantissa)
    rw [← Nat.mul_assoc, ← Nat.pow_succ] at hn
    refine (congrArg ExtendedMantissa.shiftRightOne hn).trans ?_
    simp [ExtendedMantissa.shiftRightOne]

theorem log2_two_pow_mul {mantissa : Nat} (h : mantissa ≠ 0) (n : Nat) :
    (2 ^ n * mantissa).log2 = n + mantissa.log2 := by
  induction n with
  | zero => simp
  | succ n ih =>
    have hne : 2 ^ n * mantissa ≠ 0 := Nat.mul_ne_zero (Nat.two_pow_pos n).ne' h
    rw [Nat.pow_succ', Nat.mul_assoc, Nat.log2_two_mul hne, ih]
    omega

variable {spec : Format} {mantissa : Nat} {exponent : Int}

theorem shiftToTargetExponent_exact (hpos : 0 < mantissa)
    (h : spec.targetExponent (totalExponent mantissa exponent) = exponent) (n : Nat) :
    shiftToTargetExponent spec (2 ^ n * mantissa) (exponent - n) .exact =
      (⟨mantissa, false, false⟩, exponent) := by
  have htotal : totalExponent (2 ^ n * mantissa) (exponent - n) =
      totalExponent mantissa exponent := by
    rw [totalExponent, totalExponent, log2_two_pow_mul hpos.ne']
    omega
  have hshift : (exponent - (exponent - n)).toNat = n := by omega
  rw [shiftToTargetExponent, htotal, h, shiftToExponent, hshift]
  simp [ExtendedMantissa.ofMantissaAndAccuracy, shiftRight_exact]

/-- Rounding finds a mantissa again that was multiplied by a power of two. -/
theorem roundWithAccuracy_exact (sign : Sign) (hpos : 0 < mantissa)
    (h : spec.targetExponent (totalExponent mantissa exponent) = exponent) (n : Nat) :
    roundWithAccuracy spec sign (2 ^ n * mantissa) (exponent - n) .exact =
      .finite sign mantissa exponent hpos := by
  have hfirst := shiftToTargetExponent_exact hpos h n
  have hagain := shiftToTargetExponent_exact hpos h 0
  rw [Nat.pow_zero, Nat.one_mul, Int.ofNat_zero, Int.sub_zero] at hagain
  simp [roundWithAccuracy, hfirst, ExtendedMantissa.roundedMantissa, ExtendedMantissa.accuracy,
    Accuracy.roundToNearestEven, hagain, hpos.ne']

/-! ### Unpacked numbers -/

theorem toNat_one_append (m : BitVec 23) : (1#1 ++ m).toNat = 2 ^ 23 + m.toNat := by
  rw [BitVec.toNat_append, BitVec.toNat_ofNat, Nat.shiftLeft_eq]
  exact (Nat.two_pow_add_eq_or_of_lt m.isLt 1).symm

theorem log2_one_append (m : BitVec 23) : (1#1 ++ m).toNat.log2 = 23 := by
  have hlt := m.isLt
  rw [toNat_one_append, Nat.log2_eq_iff (by omega)]
  omega

theorem log2_toNat_lt {m : BitVec 23} (hpos : 0 < m.toNat) : m.toNat.log2 < 23 :=
  (Nat.log2_lt hpos.ne').2 m.isLt

/-- The exponent of an unpacked number is the one that its mantissa calls for. -/
theorem targetExponent_unpack {b : BitVec 32} {sign : Sign} {hpos : 0 < mantissa}
    (h : unpack Format.binary32 b = .finite sign mantissa exponent hpos) :
    Format.binary32.targetExponent (totalExponent mantissa exponent) = exponent := by
  have hbias : (Format.binary32.exponentBias : Int) + (23 : Nat) = 150 := rfl
  simp only [unpack, hbias] at h
  show max (mantissa.log2 + 1 + exponent - 24) (-149) = exponent
  split at h
  · split at h <;> cases h
  · split at h
    · next hexponent =>
      split at h
      · cases h
      · cases h
        have hlog := log2_toNat_lt hpos
        rw [hexponent]
        show max (_ + 1 + (0 - 150 + 1) - 24) (-149) = 0 - 150 + 1
        omega
    · next hexponent =>
      cases h
      have hne : (@unpackExponent Format.binary32 b).toNat ≠ 0 := fun h =>
        hexponent (BitVec.eq_of_toNat_eq h)
      rw [log2_one_append]
      omega

theorem pack_subnormal (sign : Sign) {m : BitVec 23} (hpos : 0 < m.toNat) :
    pack Format.binary32 (.finite sign m.toNat (-149) hpos) =
      packComponents Format.binary32 sign 0#8 m := by
  have hlog := log2_toNat_lt hpos
  have hbits : m.toNat.log2 + 1 ≠ Format.binary32.mantissaBits := by
    show _ + 1 ≠ 24
    omega
  rw [pack, if_neg (by decide), if_neg hbits, BitVec.ofNat_toNat, BitVec.setWidth_eq]

theorem pack_normal (sign : Sign) {e : BitVec 8} (he : e ≠ -1#8) (m : BitVec 23)
    (hpos : 0 < (1#1 ++ m).toNat) :
    pack Format.binary32 (.finite sign (1#1 ++ m).toNat (e.toNat - 150) hpos) =
      packComponents Format.binary32 sign e m := by
  have hbiased : ((e.toNat - 150 : Int) + Format.binary32.exponentBias +
      Format.binary32.mantissaBitsWithoutImplicit).toNat = e.toNat := by
    show ((e.toNat - 150 : Int) + 127 + 23).toNat = e.toNat
    omega
  have hlt : ¬ 2 ^ Format.binary32.exponentBits ≤ e.toNat + 1 := by
    have hne : e.toNat ≠ 255 := fun h => he (BitVec.eq_of_toNat_eq h)
    have hlt := e.isLt
    show ¬ 2 ^ 8 ≤ e.toNat + 1
    omega
  have hm : BitVec.ofNat 23 (1#1 ++ m).toNat = m := by
    refine BitVec.eq_of_toNat_eq ?_
    rw [toNat_one_append, BitVec.toNat_ofNat, Nat.add_mod_left]
    exact Nat.mod_eq_of_lt m.isLt
  have hbits : (1#1 ++ m).toNat.log2 + 1 = Format.binary32.mantissaBits := by
    rw [log2_one_append]
    rfl
  simp only [pack, hbiased]
  rw [if_neg hlt, if_pos hbits, hm, BitVec.ofNat_toNat, BitVec.setWidth_eq]

/-- A number is made of its sign, its exponent and its mantissa. -/
theorem packComponents_unpack (b : BitVec 32) :
    packComponents Format.binary32 (Sign.ofBitVec (@unpackSign Format.binary32 b))
      (@unpackExponent Format.binary32 b) (@unpackMantissa Format.binary32 b) = b := by
  have hsign : ∀ s : BitVec 1, (Sign.ofBitVec s).toBitVec = s := by decide
  have hfront : b.extractLsb' 31 1 ++ b.extractLsb' 23 8 = b.extractLsb' 23 9 :=
    BitVec.extractLsb'_append_extractLsb'_eq_extractLsb' rfl
  have hall : b.extractLsb' 23 9 ++ b.extractLsb' 0 23 = b.extractLsb' 0 32 :=
    BitVec.extractLsb'_append_extractLsb'_eq_extractLsb' rfl
  rw [packComponents, hsign]
  show b.extractLsb' 31 1 ++ b.extractLsb' 23 8 ++ b.extractLsb' 0 23 = b
  rw [hfront, hall, BitVec.extractLsb'_eq_self]

/-- Packing takes back what unpacking does. -/
theorem pack_unpack {b : BitVec 32} (h : Format.binary32.Valid b) :
    pack Format.binary32 (unpack Format.binary32 b) = b := by
  have hbias : (Format.binary32.exponentBias : Int) + (23 : Nat) = 150 := rfl
  refine Eq.trans ?_ (packComponents_unpack b)
  simp only [unpack, hbias]
  split
  · next hexponent =>
    split
    · next hmantissa =>
      rw [hexponent, hmantissa]
      rfl
    · next hmantissa =>
      exact (h.eq_packedNaN hexponent hmantissa).symm.trans (packComponents_unpack b).symm
  · next hmax =>
    split
    · next hexponent =>
      rw [hexponent]
      split
      · next hmantissa =>
        rw [hmantissa]
        rfl
      · exact pack_subnormal _ _
    · exact pack_normal _ hmax _ _

/-! ### Multiplying by one -/

/-- One times an unpacked number whose exponent is the one that its mantissa calls for. -/
theorem one_mul_unpacked {u : UnpackedFloat}
    (hu : ∀ sign mantissa exponent hpos, u = .finite sign mantissa exponent hpos →
      Format.binary32.targetExponent (totalExponent mantissa exponent) = exponent) :
    mul Format.binary32 (.finite .positive (2 ^ 23) (-23) (Nat.two_pow_pos 23)) u = u := by
  have hsign : ∀ sign : Sign, .positive * sign = sign := by
    rintro (_ | _) <;> rfl
  cases u with
  | notANumber => rfl
  | infinity sign => rw [mul, hsign]
  | zero sign => rw [mul, hsign]
  | finite sign mantissa exponent hpos =>
    have htarget := hu sign mantissa exponent hpos rfl
    have hexponent : -23 + exponent = exponent - (23 : Nat) := by omega
    rw [mul, hsign, hexponent, roundWithAccuracy_exact sign hpos htarget]

/-- One times a value is that value, also where it is no number. -/
theorem one_mul_value (v : Float32) : 1 * v = v := by
  obtain ⟨v⟩ := v
  have hpack : Float32.Model.pack v.unpack = v := by
    obtain ⟨bits, hvalid⟩ := v
    simp only [Float32.Model.pack, Float32.Model.unpack, pack_unpack hvalid]
  have hmul : mul Format.binary32 (1 : Float32).toModel.unpack v.unpack = v.unpack :=
    one_mul_unpacked fun _ _ _ _ => targetExponent_unpack
  exact congrArg Float32.ofModel ((congrArg Float32.Model.pack hmul).trans hpack)

/-- What is stored is no number if its exponent is greatest and its mantissa is not zero. -/
theorem isNaN_iff {x : Single} : x.isNaN = true ↔
    @unpackExponent Format.binary32 x.bits.toBitVec = -1#8 ∧
      @unpackMantissa Format.binary32 x.bits.toBitVec ≠ 0#23 := by
  have hexponent : (@unpackExponent Format.binary32 x.bits.toBitVec).toNat =
      x.bits.toNat / 2 ^ 23 % 2 ^ 8 := by
    show (x.bits.toBitVec.extractLsb' 23 8).toNat = _
    rw [BitVec.extractLsb'_toNat, Nat.shiftRight_eq_div_pow]
    rfl
  have hmantissa : (@unpackMantissa Format.binary32 x.bits.toBitVec).toNat =
      x.bits.toNat % 2 ^ 23 := by
    show (x.bits.toBitVec.extractLsb' 0 23).toNat = _
    rw [BitVec.extractLsb'_toNat, Nat.shiftRight_zero]
    rfl
  have hmagnitude : (x.bits &&& 0x7fffffff).toNat = x.bits.toNat % 2 ^ 31 :=
    Nat.and_two_pow_sub_one_eq_mod x.bits.toNat 31
  rw [isNaN, decide_eq_true_eq, UInt32.lt_iff_toNat_lt, hmagnitude, ne_eq, ← BitVec.toNat_inj,
    ← BitVec.toNat_inj, hexponent, hmantissa]
  show 0x7f800000 < _ ↔ _ = 255 ∧ ¬ _ = 0
  omega

/-- The value of a number is stored as the number. -/
theorem ofValue_value {x : Single} (h : x.isNaN = false) : ofValue x.value = x := by
  have hnot : ¬ (_ ∧ _) := fun hnan => Bool.false_ne_true (h.symm.trans (isNaN_iff.2 hnan))
  have hvalid : Format.binary32.Valid x.bits.toBitVec :=
    ⟨fun hexponent hmantissa => absurd ⟨hexponent, hmantissa⟩ hnot⟩
  have hbits : x.value.toBits = x.bits := congrArg UInt32.ofBitVec (pack_unpack hvalid)
  have hnan : x.value.isNaN = false := by
    show (unpack Format.binary32 x.value.toBits.toBitVec).isNaN = false
    rw [hbits, unpack]
    simp only
    split
    · next hexponent =>
      split
      · rfl
      · next hmantissa => exact absurd ⟨hexponent, hmantissa⟩ hnot
    · split
      · split <;> rfl
      · rfl
  rw [ofValue, hnan, hbits]
  rfl

/-- One times a number is that number, whatever is stored of it. -/
theorem one_mul (x : Single) : (ScoreNumber.one : Single) * x = x := by
  show combine (· * ·) (ofValue 1) x = x
  have hone : (ofValue 1).isNaN = false := by decide
  have hvalue : (ofValue 1).value = 1 := rfl
  rw [combine, hone, if_neg Bool.false_ne_true, hvalue, one_mul_value]
  cases h : x.isNaN with
  | true => rfl
  | false => exact ofValue_value h

end Single

instance : ExactUnit Single where
  one_mul := Single.one_mul

end TextSearch

import BuildNotice.Decimal.Print
import Mathlib

/-! Whole numbers of magnitude below `2 ^ 53` are doubles that print their own digits. -/

namespace BuildNotice.Decimal

open Float.Model Float.Model.UnpackedFloat

section Unpacked

variable {m : Nat} {e : Int}

lemma log2_of_normal (hlo : 2 ^ 52 ≤ m) (hhi : m < 2 ^ 53) : m.log2 = 52 :=
  (Nat.log2_eq_iff (by omega)).mpr ⟨hlo, hhi⟩

lemma targetExponent_of_normal (hlo : 2 ^ 52 ≤ m) (hhi : m < 2 ^ 53) (he : -1074 ≤ e) :
    Format.binary64.targetExponent (totalExponent m e) = e := by
  simp only [Format.targetExponent, totalExponent, log2_of_normal hlo hhi, Format.mantissaBits,
    Format.minExponent]
  norm_num
  omega

lemma shift_exact (m k : Nat) :
    (⟨m * 2 ^ k, false, false⟩ : ExtendedMantissa) >>> k = ⟨m, false, false⟩ := by
  induction k generalizing m with
  | zero => simp [HShiftRight.hShiftRight, Nat.repeat]
  | succ k ih =>
    have hshift := ih (m * 2)
    rw [mul_assoc, ← pow_succ'] at hshift
    change ExtendedMantissa.shiftRightOne ((⟨m * 2 ^ (k + 1), false, false⟩ : ExtendedMantissa) >>> k) = _
    rw [hshift]
    simp [ExtendedMantissa.shiftRightOne]

lemma shiftToExponent_exact (m k : Nat) (e : Int) :
    shiftToExponent (m * 2 ^ k) (e - k) .exact e = (⟨m, false, false⟩, e) := by
  have hk : (e - (e - k)).toNat = k := by omega
  simp only [shiftToExponent, hk, ExtendedMantissa.ofMantissaAndAccuracy, shift_exact,
    sub_add_cancel]

lemma shiftToTargetExponent_normal (hlo : 2 ^ 52 ≤ m) (hhi : m < 2 ^ 53) (he : -1074 ≤ e) :
    shiftToTargetExponent .binary64 m e .exact = (⟨m, false, false⟩, e) := by
  have h := shiftToExponent_exact m 0 e
  rw [pow_zero, mul_one, Nat.cast_zero, sub_zero] at h
  rw [shiftToTargetExponent, targetExponent_of_normal hlo hhi he, h]

lemma roundWithAccuracy_exact (s : Sign) (k : Nat) (hlo : 2 ^ 52 ≤ m) (hhi : m < 2 ^ 53)
    (he : -1074 ≤ e) :
    roundWithAccuracy .binary64 s (m * 2 ^ k) (e - k) .exact = .finite s m e (by omega) := by
  have htotal : totalExponent (m * 2 ^ k) (e - k) = totalExponent m e := by
    have hlog : (m * 2 ^ k).log2 = 52 + k := by
      rw [Nat.log2_eq_iff (by positivity), add_right_comm, pow_add, pow_add]
      exact ⟨Nat.mul_le_mul_right _ hlo, Nat.mul_lt_mul_of_pos_right hhi (by positivity)⟩
    simp only [totalExponent, hlog, log2_of_normal hlo hhi]
    omega
  have hshift : shiftToTargetExponent .binary64 (m * 2 ^ k) (e - k) .exact =
      (⟨m, false, false⟩, e) := by
    rw [shiftToTargetExponent, htotal, targetExponent_of_normal hlo hhi he, shiftToExponent_exact]
  have hne : m ≠ 0 := by omega
  simp only [roundWithAccuracy, hshift, ExtendedMantissa.roundedMantissa, ExtendedMantissa.accuracy,
    Accuracy.roundToNearestEven, shiftToTargetExponent_normal hlo hhi he, dif_neg hne]

lemma toNat_one_append (b : BitVec 52) : (1#1 ++ b).toNat = 2 ^ 52 + b.toNat := by
  rw [BitVec.toNat_append, ← Nat.shiftLeft_add_eq_or_of_lt b.isLt]
  simp [Nat.shiftLeft_eq]

lemma unpack_pack (s : Sign) (hlo : 2 ^ 52 ≤ m) (hhi : m < 2 ^ 53) (he : -1074 ≤ e)
    (he' : e ≤ 971) (hm : 0 < m) :
    (Float.Model.pack (.finite s m e hm)).unpack = .finite s m e hm := by
  have hbias : (Format.binary64.exponentBias : Int) = 1023 := rfl
  have hplaces : (e + Format.binary64.exponentBias + Format.binary64.mantissaBitsWithoutImplicit)
      = e + 1075 := by
    rw [hbias]
    norm_num
    omega
  have hexponent : (BitVec.ofNat 11 (e + 1075).toNat).toNat = (e + 1075).toNat := by
    rw [BitVec.toNat_ofNat, Nat.mod_eq_of_lt (by omega)]
  have hones : BitVec.ofNat 11 (e + 1075).toNat ≠ -1#11 := fun h => by
    have := congrArg BitVec.toNat h
    rw [hexponent, show (-1#11).toNat = 2047 from rfl] at this
    omega
  have hzeros : BitVec.ofNat 11 (e + 1075).toNat ≠ 0#11 := fun h => by
    have := congrArg BitVec.toNat h
    rw [hexponent, show (0#11).toNat = 0 from rfl] at this
    omega
  have hmantissa : (1#1 ++ BitVec.ofNat 52 m).toNat = m := by
    rw [toNat_one_append, BitVec.toNat_ofNat]
    omega
  rw [Float.Model.unpack, Float.Model.pack, UInt64.toBitVec_ofBitVec, UnpackedFloat.pack]
  simp only [log2_of_normal hlo hhi, hplaces]
  rw [if_neg (by omega), if_pos (by rfl), UnpackedFloat.unpack]
  simp only [unpackMantissa_packComponents, unpackExponent_packComponents,
    unpackSign_packComponents, Sign.ofBitVec_toBitVec]
  rw [if_neg hones, if_neg hzeros]
  simp only [hmantissa, hexponent, hbias]
  congr 1
  norm_num
  omega

end Unpacked

section OfNat

variable {n : Nat}

def shiftOf (n : Nat) : Nat := 52 - n.log2

lemma filled_bounds (hn : 0 < n) (hlt : n < 2 ^ 53) :
    2 ^ 52 ≤ n * 2 ^ shiftOf n ∧ n * 2 ^ shiftOf n < 2 ^ 53 := by
  have hlog : n.log2 < 53 := (Nat.log2_lt hn.ne').mpr hlt
  obtain ⟨hlo, hhi⟩ := (Nat.log2_eq_iff hn.ne').mp (rfl : n.log2 = n.log2)
  have hpow : 2 ^ n.log2 * 2 ^ shiftOf n = 2 ^ 52 := by
    rw [← pow_add]
    congr 1
    simp only [shiftOf]
    omega
  constructor
  · rw [← hpow]
    exact Nat.mul_le_mul_right _ hlo
  · rw [pow_succ 2 52, ← hpow, mul_right_comm, ← pow_succ]
    exact Nat.mul_lt_mul_of_pos_right hhi (by positivity)

lemma filled_pos (hn : 0 < n) : 0 < n * 2 ^ shiftOf n := by positivity

lemma ofNat_unpacked (hn : 0 < n) (hlt : n < 2 ^ 53) :
    UnpackedFloat.ofNat .binary64 n =
      .finite .positive (n * 2 ^ shiftOf n) (-shiftOf n) (filled_pos hn) := by
  have hlog : n.log2 < 53 := (Nat.log2_lt hn.ne').mpr hlt
  have hle : shiftOf n ≤ 52 := Nat.sub_le _ _
  have htarget : Format.binary64.targetExponent (totalExponent n 0) = -shiftOf n := by
    simp only [Format.targetExponent, totalExponent, Format.mantissaBits, Format.minExponent,
      shiftOf]
    norm_num
    omega
  have hsign : compare (n : Int) 0 = .gt := by
    rw [Int.compare_eq_gt]
    omega
  obtain ⟨hlo, hhi⟩ := filled_bounds hn hlt
  have hround := roundWithAccuracy_exact .positive 0 hlo hhi (e := -shiftOf n) (by omega)
  have hfinite : UnpackedFloat.round .binary64 .positive n 0 =
      .finite .positive (n * 2 ^ shiftOf n) (-shiftOf n) (filled_pos hn) := by
    simp only [UnpackedFloat.round, htarget, decreaseExponent, zero_sub, neg_neg, Int.toNat_natCast,
      Nat.shiftLeft_eq]
    simpa using hround
  simpa [UnpackedFloat.ofNat, UnpackedFloat.ofInt, UnpackedFloat.normalize, hsign] using hfinite

lemma unpack_pack_filled (s : Sign) (hn : 0 < n) (hlt : n < 2 ^ 53) :
    (Float.Model.pack (.finite s (n * 2 ^ shiftOf n) (-shiftOf n) (filled_pos hn))).unpack =
      .finite s (n * 2 ^ shiftOf n) (-shiftOf n) (filled_pos hn) := by
  have hle : shiftOf n ≤ 52 := Nat.sub_le _ _
  obtain ⟨hlo, hhi⟩ := filled_bounds hn hlt
  exact unpack_pack s hlo hhi (by omega) (by omega) (filled_pos hn)

lemma unpack_one : (Float.ofBits 0x3FF0000000000000).toModel.unpack =
    .finite .positive (2 ^ 52) (-52) (by decide) := by
  rfl

lemma ofNat_eq (hn : 0 < n) (hlt : n < 2 ^ 53) :
    Float.ofNat n = .ofModel (.pack
      (.finite .positive (n * 2 ^ shiftOf n) (-shiftOf n) (filled_pos hn))) := by
  have hword : n.toUInt64.toNat = n := by
    rw [UInt64.toNat_ofNat', Nat.mod_eq_of_lt (by omega)]
  have hle : shiftOf n ≤ 52 := Nat.sub_le _ _
  obtain ⟨hlo, hhi⟩ := filled_bounds hn hlt
  have hround := roundWithAccuracy_exact .positive 52 hlo hhi (e := -shiftOf n) (by omega)
  have hproduct : Float.ofNat n = n.toUInt64.toFloat * Float.ofBits 0x3FF0000000000000 := by
    change Float.ofScientific n false 0 = _
    rw [Float.ofScientific, dif_pos ⟨hlt, by decide⟩]
    rfl
  rw [hproduct]
  change Float.ofModel (.pack (UnpackedFloat.mul .binary64 (Float.Model.pack _).unpack _)) = _
  rw [unpack_one]
  simp only [UnpackedFloat.ofUInt64, hword, ofNat_unpacked hn hlt, unpack_pack_filled .positive hn hlt]
  exact congrArg (fun u => Float.ofModel (.pack u)) hround

def signOf (n : Int) : Sign := if n < 0 then .negative else .positive

lemma ofInt_eq {n : Int} (hn : 0 < n.natAbs) (hlt : n.natAbs < 2 ^ 53) :
    Float.ofInt n = .ofModel (.pack (.finite (signOf n) (n.natAbs * 2 ^ shiftOf n.natAbs)
      (-shiftOf n.natAbs) (filled_pos hn))) := by
  cases n with
  | ofNat n => exact ofNat_eq hn hlt
  | negSucc n =>
    change Float.neg (Float.ofNat (n + 1)) = _
    rw [ofNat_eq (n := n + 1) hn hlt]
    change Float.ofModel (.pack (Float.Model.pack _).unpack.neg) = _
    rw [unpack_pack_filled (n := n + 1) .positive hn hlt]
    rw [show signOf (Int.negSucc n) = .negative from if_pos (Int.negSucc_lt_zero n)]
    rfl

end OfNat

section Bits

lemma toNat_packComponents (s : Sign) (e : BitVec 11) (f : BitVec 52) :
    (packComponents .binary64 s e f).toNat =
      s.toBitVec.toNat * 2 ^ 63 + e.toNat * 2 ^ 52 + f.toNat := by
  simp only [packComponents, BitVec.toNat_append]
  rw [← Nat.shiftLeft_add_eq_or_of_lt e.isLt, ← Nat.shiftLeft_add_eq_or_of_lt f.isLt]
  simp only [Nat.shiftLeft_eq]
  norm_num
  ring

open Shortest

lemma ofFloat_pack {m : Nat} {e : Int} (s : Sign) (hlo : 2 ^ 52 ≤ m) (hhi : m < 2 ^ 53)
    (he : -1074 ≤ e) (he' : e ≤ 971) (hm : 0 < m) :
    Binary.ofFloat (.ofModel (.pack (.finite s m e hm))) = ⟨s == .negative, m, e⟩ := by
  have hbias : (Format.binary64.exponentBias : Int) = 1023 := rfl
  have hbits : (Float.toBits (.ofModel (.pack (.finite s m e hm)))).toNat =
      s.toBitVec.toNat * 2 ^ 63 + (e + 1075).toNat * 2 ^ 52 + (m - 2 ^ 52) := by
    change (UnpackedFloat.pack .binary64 (.finite s m e hm)).toNat = _
    have hplaces : (e + Format.binary64.exponentBias + Format.binary64.mantissaBitsWithoutImplicit)
        = e + 1075 := by
      rw [hbias]
      norm_num
      omega
    rw [UnpackedFloat.pack]
    simp only [log2_of_normal hlo hhi, hplaces]
    rw [if_neg (by omega), if_pos (by rfl), toNat_packComponents]
    simp only [BitVec.toNat_ofNat]
    omega
  have hsign : s.toBitVec.toNat = if s == .negative then 1 else 0 := by cases s <;> rfl
  have hnegative : decide (2 ^ 63 ≤ (Float.toBits (.ofModel (.pack (.finite s m e hm)))).toNat) =
      (s == .negative) := by
    rw [hbits, hsign]
    cases s == Sign.negative with
    | true => exact decide_eq_true (by simp only [if_true]; omega)
    | false => exact decide_eq_false (by simp only [Bool.false_eq_true, if_false]; omega)
  have hfraction : (Float.toBits (.ofModel (.pack (.finite s m e hm)))).toNat % 2 ^ 52 =
      m - 2 ^ 52 := by omega
  have hexponent : (Float.toBits (.ofModel (.pack (.finite s m e hm)))).toNat / 2 ^ 52 % 2 ^ 11 =
      (e + 1075).toNat := by
    rw [hbits, hsign]
    split <;> omega
  have hm : 2 ^ 52 + (m - 2 ^ 52) = m := by omega
  have he : ((e + 1075).toNat : Int) - 1075 = e := by omega
  rw [Binary.ofFloat]
  simp only [Nat.pow_eq, hfraction, hexponent, hnegative]
  rw [if_neg (by omega), hm, he]

end Bits

section Printing

open Shortest Print

variable {n : Int}

lemma whole?_filled {n : Nat} (hlt : n < 2 ^ 53) :
    whole? (n * 2 ^ shiftOf n) (-shiftOf n) = some n := by
  have hup : twoPow (-(shiftOf n : Int)) = 1 := by
    rw [twoPow, Int.toNat_of_nonpos (by omega), Nat.pow_eq, pow_zero]
  have hdown : twoPow (- -(shiftOf n : Int)) = 2 ^ shiftOf n := by
    rw [neg_neg, twoPow, Int.toNat_natCast]
    rfl
  have hpos : 0 < 2 ^ shiftOf n := by positivity
  rw [whole?, hup, hdown]
  simpa [Nat.mul_div_cancel _ hpos] using hlt

lemma toList_repr (n : Int) :
    n.repr.toList = if n < 0 then '-' :: Nat.toDigits 10 n.natAbs else Nat.toDigits 10 n.natAbs := by
  cases n with
  | ofNat n =>
    rw [if_neg (by simp)]
    exact Nat.toList_repr
  | negSucc n =>
    rw [if_pos (Int.negSucc_lt_zero n)]
    simp [Int.repr, Nat.toList_repr]

lemma ofInt_isNaN (hlt : n.natAbs < 2 ^ 53) : (Float.ofInt n).isNaN = false := by
  rcases Nat.eq_zero_or_pos n.natAbs with hzero | hn
  · obtain rfl := Int.natAbs_eq_zero.mp hzero
    decide
  · rw [ofInt_eq hn hlt]
    exact congrArg UnpackedFloat.isNaN (unpack_pack_filled (signOf n) hn hlt)

lemma ofInt_isInf (hn : 0 < n.natAbs) (hlt : n.natAbs < 2 ^ 53) :
    (Float.ofInt n).isInf = false := by
  rw [ofInt_eq hn hlt]
  exact congrArg UnpackedFloat.isInf (unpack_pack_filled (signOf n) hn hlt)

lemma ofFloat_ofInt (hn : 0 < n.natAbs) (hlt : n.natAbs < 2 ^ 53) :
    Binary.ofFloat (Float.ofInt n) =
      ⟨decide (n < 0), n.natAbs * 2 ^ shiftOf n.natAbs, -shiftOf n.natAbs⟩ := by
  obtain ⟨hlo, hhi⟩ := filled_bounds hn hlt
  have hle : shiftOf n.natAbs ≤ 52 := Nat.sub_le _ _
  have hsign : (signOf n == .negative) = decide (n < 0) := by
    by_cases h : n < 0 <;> simp [signOf, h]
  rw [ofInt_eq hn hlt, ← hsign]
  exact ofFloat_pack (signOf n) hlo hhi (by omega) (by omega) (filled_pos hn)

lemma print_ofInt (hlt : n.natAbs < 2 ^ 53) : print (Float.ofInt n) = n.repr := by
  rcases Nat.eq_zero_or_pos n.natAbs with hzero | hn
  · obtain rfl := Int.natAbs_eq_zero.mp hzero
    decide +kernel
  · have hshown : (n.natAbs * 2 ^ shiftOf n.natAbs != 0) = true := by
      simpa using filled_pos hn
    apply String.toList_inj.mp
    rw [print, ofInt_isNaN hlt, ofInt_isInf hn hlt, ofFloat_ofInt hn hlt, toList_repr]
    simp only [Bool.false_eq_true, if_false, String.toList_ofList, magnitude,
      whole?_filled hlt, hshown, Bool.and_true, decide_eq_true_eq]

lemma print_congr {x y : Float} (h : (x == y) = true) : print x = print y := by
  obtain ⟨-, -, rfl | ⟨rfl, rfl⟩ | ⟨rfl, rfl⟩⟩ := Float.beq_iff_ne_nan_and_eq.mp h
  · rfl
  · decide +kernel
  · decide +kernel

def IsWhole (x : Float) : Prop := ∃ n : Int, n.natAbs < 2 ^ 53 ∧ (x == Float.ofInt n) = true

lemma print_eq_iff {x y : Float} (hx : IsWhole x) (hy : IsWhole y) :
    print x = print y ↔ (x == y) = true := by
  refine ⟨fun h => ?_, print_congr⟩
  obtain ⟨n, hn, hxn⟩ := hx
  obtain ⟨k, hk, hyk⟩ := hy
  have hprinted : n.repr = k.repr := by
    rw [← print_ofInt hn, ← print_ofInt hk, ← print_congr hxn, ← print_congr hyk, h]
  obtain rfl := Int.repr_inj.mp hprinted
  rw [Float.beq_iff_ne_nan_and_eq] at *
  grind

lemma isWhole_ofInt (hlt : n.natAbs < 2 ^ 53) : IsWhole (Float.ofInt n) := by
  refine ⟨n, hlt, ?_⟩
  rw [Float.beq_self_iff]
  simpa using ofInt_isNaN hlt

lemma isWhole_negativeZero : IsWhole (-0) := ⟨0, by decide, by decide⟩

end Printing

end BuildNotice.Decimal

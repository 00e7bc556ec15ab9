import Mathlib.Algebra.Order.Field.Power
import Mathlib.Algebra.Order.Floor.Div
import Mathlib.Data.ENat.Lattice
import Mathlib.Data.Rat.Floor
import Mathlib.Tactic.Linarith
import Script.Proofs.Number.Positional
import Script.Value.Operations

/-!
# Repeated texts

A text times a number is computed in 64-bit words: a count that does not fit in a word becomes the
largest word, and a product of length and count that does not fit in one is refused.
`repetition_is_exact` says that the words cannot be noticed. The result is what whole numbers
without bound give, infinity included.

## Shape of the proof

`Number.timesOf` is the count in exact arithmetic, read off the sign, mantissa and exponent of a
number. The word that stands for it is the count cut off at the largest word (`toNat_repeatCount`).
A product of two counts that were cut off is small only if nothing was cut off
(`clamp_mul_clamp_le_iff`), for the limit on the length of texts is far below the largest word.
-/

namespace Script

open Float.Model (UnpackedFloat)

/-! ## Exact magnitudes -/

namespace Number

/-- The magnitude of a number that was taken apart. -/
def Magnitude.ofUnpacked? : UnpackedFloat → Option Magnitude
  | .notANumber | .infinity _ => none
  | .zero _ => some ⟨0, -1074⟩
  | .finite _ mantissa exponent _ => some ⟨mantissa, exponent⟩

open Float.Model in
/-- The lowest 52 bits are those of the fraction. -/
theorem toNat_unpackMantissa (bits : BitVec 64) :
    (@UnpackedFloat.unpackMantissa Format.binary64 bits).toNat = bits.toNat % 2 ^ 52 := by
  show (BitVec.extractLsb' 0 52 bits).toNat = _
  rw [BitVec.extractLsb'_toNat, Nat.shiftRight_zero]

/-- A leading bit adds a power of two. -/
theorem toNat_one_append {w : Nat} (v : BitVec w) : (1#1 ++ v).toNat = 2 ^ w + v.toNat := by
  rw [BitVec.toNat_append, ← Nat.shiftLeft_add_eq_or_of_lt v.isLt, Nat.shiftLeft_eq,
    BitVec.toNat_one, Nat.one_mul]
  exact Nat.one_pos

open Float.Model in
/-- The bits of a number are read as the parts of the number. -/
theorem Magnitude.ofFloat?_eq (x : Float) : ofFloat? x = ofUnpacked? x.toModel.unpack := by
  show ofFloat? x = ofUnpacked? (UnpackedFloat.unpack Format.binary64 x.toBits.toBitVec)
  have hfield : (@UnpackedFloat.unpackExponent Format.binary64 x.toBits.toBitVec).toNat
      = x.toBits.toNat / Nat.pow 2 52 % 2048 := toNat_unpackExponent x.toBits.toBitVec
  have hfraction : (@UnpackedFloat.unpackMantissa Format.binary64 x.toBits.toBitVec).toNat
      = x.toBits.toNat % Nat.pow 2 52 := toNat_unpackMantissa x.toBits.toBitVec
  unfold ofFloat?
  simp only [← hfield, ← hfraction]
  split
  -- An exponent of ones is infinity or NaN, one of zeros is a small number or zero, and in front of
  -- all other fractions there is a one.
  next hset =>
    unfold UnpackedFloat.unpack
    rw [if_pos (BitVec.toNat_inj.mp hset)]
    split <;> rfl
  next hset =>
    split
    next hclear =>
      unfold UnpackedFloat.unpack
      rw [if_neg (mt BitVec.toNat_inj.mpr hset), if_pos (BitVec.toNat_inj.mp hclear)]
      by_cases hzero : @UnpackedFloat.unpackMantissa Format.binary64 x.toBits.toBitVec = 0#_
      · rw [dif_pos hzero, hzero]
        rfl
      · rw [dif_neg hzero, hclear]
        rfl
    next hclear =>
      unfold UnpackedFloat.unpack
      rw [if_neg (mt BitVec.toNat_inj.mpr hset), if_neg (mt BitVec.toNat_inj.mpr hclear)]
      exact congrArg (fun mantissa => some (⟨mantissa, _⟩ : Magnitude)) (toNat_one_append _).symm

/-- A magnitude is a rational number. -/
theorem Magnitude.ceil_eq (m : Magnitude) : m.ceil = ⌈(m.mantissa : ℚ) * 2 ^ m.exponent⌉₊ := by
  have hvalue : (m.mantissa : ℚ) * 2 ^ m.exponent = m.numerator / m.denominator := by
    unfold numerator denominator
    obtain ⟨n, hn | hn⟩ := Int.eq_nat_or_neg m.exponent
    · simp [hn]
    · simp [hn, div_eq_mul_inv]
  refine eq_of_forall_ge_iff fun c => ?_
  have hpos : (0 : ℚ) < m.denominator := by exact_mod_cast m.denominator_pos
  rw [ceil, ← Nat.ceilDiv_eq_add_pred_div, ceilDiv_le_iff_le_mul m.denominator_pos,
    Nat.ceil_le, hvalue, div_le_iff₀ hpos, mul_comm]
  exact_mod_cast Iff.rfl

/-- How often a number that was taken apart asks for something to be done: the number rounded up,
but at least zero times, and never for NaN. -/
def times : UnpackedFloat → ℕ∞
  | .notANumber | .zero _ | .infinity .negative => 0
  | .infinity .positive => ⊤
  | .finite sign mantissa exponent _ => ⌈(sign.apply mantissa : ℚ) * 2 ^ exponent⌉₊

/-- How often a number asks for something to be done. -/
def timesOf (x : Float) : ℕ∞ := times x.toModel.unpack

/-- A positive number asks for as many times as its magnitude rounded up. -/
theorem times_positive {mantissa : Nat} (h : 0 < mantissa) (exponent : Int) :
    times (.finite .positive mantissa exponent h) = (⟨mantissa, exponent⟩ : Magnitude).ceil := by
  rw [Magnitude.ceil_eq]
  rfl

/-- A positive number asks for one time at least. -/
theorem times_positive_ne_zero {mantissa : Nat} (h : 0 < mantissa) (exponent : Int) :
    times (.finite .positive mantissa exponent h) ≠ 0 := by
  have hvalue : (0 : ℚ) < mantissa * 2 ^ exponent := by positivity
  show ((⌈(mantissa : ℚ) * 2 ^ exponent⌉₊ : ℕ) : ℕ∞) ≠ 0
  exact_mod_cast (Nat.ceil_pos.mpr hvalue).ne'

/-- A negative number asks for nothing. -/
theorem times_negative {mantissa : Nat} (h : 0 < mantissa) (exponent : Int) :
    times (.finite .negative mantissa exponent h) = 0 := by
  have hvalue : ((-(mantissa : ℤ) : ℤ) : ℚ) * 2 ^ exponent ≤ 0 := by
    push_cast
    have : (0 : ℚ) < mantissa * 2 ^ exponent := by positivity
    linarith
  show ((⌈((-(mantissa : ℤ) : ℤ) : ℚ) * 2 ^ exponent⌉₊ : ℕ) : ℕ∞) = 0
  exact_mod_cast Nat.ceil_eq_zero.mpr hvalue

/-- NaN and what is not positive ask for nothing. -/
theorem isNaN_or_le_zero_iff (x : Float) :
    (x.isNaN || decide (x ≤ 0.0)) = true ↔ timesOf x = 0 := by
  have hle : x ≤ 0.0 ↔ x.toModel.unpack.le (.zero .positive) = true := decide_eq_true_iff
  rw [Bool.or_eq_true, decide_eq_true_iff, hle]
  show x.toModel.unpack.isNaN = true ∨ _ ↔ times x.toModel.unpack = 0
  cases x.toModel.unpack with
  | notANumber => exact iff_of_true (.inl rfl) rfl
  | zero sign => exact iff_of_true (.inr rfl) rfl
  | infinity sign =>
    cases sign with
    | negative => exact iff_of_true (.inr rfl) rfl
    | positive => exact iff_of_false (by rintro (h | h) <;> cases h) ENat.top_ne_zero
  | finite sign mantissa exponent hpos =>
    cases sign with
    | negative => exact iff_of_true (.inr rfl) (times_negative hpos exponent)
    | positive =>
      exact iff_of_false (by rintro (h | h) <;> cases h) (times_positive_ne_zero hpos exponent)

end Number

/-! ## Words -/

namespace Value

open Number

/-- A count that does not fit in a word is cut to the largest one. -/
theorem toNat_ofNatClamp (n : Nat) : (UInt64.ofNatClamp n).toNat = min n (UInt64.size - 1) := by
  rcases Nat.lt_or_ge n UInt64.size with hlt | hge
  · rw [UInt64.toNat_ofNatClamp_of_lt hlt, min_eq_left (Nat.le_sub_one_of_lt hlt)]
  · rw [UInt64.toNat_ofNatClamp_of_le hge, min_eq_right (by omega)]

/-- The word for a count is the count cut off at the largest word. -/
theorem toNat_repeatCount (x : Float) :
    ((repeatCount x).toNat : ℕ∞) = min (timesOf x) (UInt64.size - 1 : Nat) := by
  unfold repeatCount
  by_cases hnone : (x.isNaN || decide (x ≤ 0.0)) = true
  · rw [if_pos hnone, (isNaN_or_le_zero_iff x).mp hnone, min_eq_left zero_le]
    rfl
  · rw [if_neg hnone, Magnitude.ofFloat?_eq]
    -- What is neither NaN nor at most zero is a positive number or infinity.
    have htimes : times x.toModel.unpack ≠ 0 := mt (isNaN_or_le_zero_iff x).mpr hnone
    unfold timesOf
    cases hx : x.toModel.unpack with
    | notANumber | zero sign =>
      rw [hx] at htimes
      exact absurd rfl htimes
    | infinity sign =>
      cases sign with
      | negative =>
        rw [hx] at htimes
        exact absurd rfl htimes
      | positive =>
        show ((UInt64.ofNatClamp UInt64.size).toNat : ℕ∞) = min ⊤ _
        rw [min_eq_right le_top, UInt64.toNat_ofNatClamp_of_le (Nat.le_refl _)]
    | finite sign mantissa exponent hpos =>
      cases sign with
      | negative =>
        rw [hx] at htimes
        exact absurd (times_negative hpos exponent) htimes
      | positive =>
        rw [times_positive]
        show ((UInt64.ofNatClamp (⟨mantissa, exponent⟩ : Magnitude).ceil).toNat : ℕ∞) = _
        rw [toNat_ofNatClamp]
        exact Nat.mono_cast.map_min

/-- A product of counts that were cut off at the largest word is within the limit exactly if the
product of the counts themselves is. -/
theorem clamp_mul_clamp_le_iff (length : Nat) (x : Float) :
    min length (UInt64.size - 1) * (repeatCount x).toNat ≤ maxTextBytes
      ↔ (length : ℕ∞) * timesOf x ≤ (maxTextBytes : ℕ) := by
  have hlimit : maxTextBytes < UInt64.size - 1 := by decide
  have hcount := toNat_repeatCount x
  generalize (repeatCount x).toNat = k at hcount ⊢
  generalize timesOf x = times at hcount ⊢
  rcases Nat.eq_zero_or_pos length with rfl | hlength
  · simp
  by_cases htop : times = ⊤
  · subst htop
    obtain rfl : k = UInt64.size - 1 := by exact_mod_cast hcount.trans (min_eq_right le_top)
    have hlarge : UInt64.size - 1 ≤ min length (UInt64.size - 1) * (UInt64.size - 1) :=
      Nat.le_mul_of_pos_left _ (Nat.lt_min.mpr ⟨hlength, by decide⟩)
    refine iff_of_false (by omega) ?_
    rw [ENat.mul_top (by exact_mod_cast hlength.ne')]
    exact not_le.mpr (ENat.natCast_lt_top _)
  · obtain ⟨count, rfl⟩ := ENat.ne_top_iff_exists.mp htop
    obtain rfl : k = min count (UInt64.size - 1) :=
      ENat.natCast_inj.mp (hcount.trans Nat.mono_cast.map_min.symm)
    norm_cast
    constructor
    · intro hle
      rcases Nat.eq_zero_or_pos count with rfl | hcount
      · simp
      -- Each factor is at most the product, so it is below the largest word and was not cut off.
      have hfirst : min length (UInt64.size - 1) ≤ maxTextBytes :=
        (Nat.le_mul_of_pos_right _ (Nat.lt_min.mpr ⟨hcount, by decide⟩)).trans hle
      have hsecond : min count (UInt64.size - 1) ≤ maxTextBytes :=
        (Nat.le_mul_of_pos_left _ (Nat.lt_min.mpr ⟨hlength, by decide⟩)).trans hle
      rwa [min_eq_left (by omega), min_eq_left (by omega)] at hle
    · exact fun hle => (Nat.mul_le_mul (min_le_left _ _) (min_le_left _ _)).trans hle

/-- The count of a text that fits was not cut off. -/
theorem toNat_repeatCount_of_fits {length : Nat} {x : Float} (hlength : length ≠ 0)
    (h : (length : ℕ∞) * timesOf x ≤ (maxTextBytes : ℕ)) :
    ((repeatCount x).toNat : ℕ∞) = timesOf x := by
  have hlimit : ((maxTextBytes : ℕ) : ℕ∞) ≤ (UInt64.size - 1 : Nat) := by
    exact_mod_cast (by decide : maxTextBytes ≤ UInt64.size - 1)
  have hone : (1 : ℕ∞) ≤ length := by exact_mod_cast Nat.one_le_iff_ne_zero.mpr hlength
  rw [toNat_repeatCount, min_eq_left]
  calc timesOf x = 1 * timesOf x := (one_mul _).symm
    _ ≤ length * timesOf x := by gcongr
    _ ≤ (maxTextBytes : ℕ) := h
    _ ≤ (UInt64.size - 1 : Nat) := hlimit

/-! ## Texts -/

/-- A repeated text has the characters of the text as often. -/
theorem toList_repeated (s : String) (n : Nat) :
    (repeated s n).toList = (List.replicate n s.toList).flatten := by
  fun_induction repeated s n with
  | case1 => rfl
  | case2 n hn half heven ih =>
    have hsplit : n = n / 2 + n / 2 := by omega
    rw [String.toList_append, ih, ← List.flatten_append, ← List.replicate_add, ← hsplit]
  | case3 n hn half hodd ih =>
    have hsplit : n = n / 2 + n / 2 + 1 := by omega
    rw [String.toList_append, String.toList_append, ih, ← List.flatten_append, ← List.replicate_add]
    conv_rhs => rw [hsplit, List.replicate_succ', List.flatten_append, List.flatten_singleton]

/-- A repeated text has the bytes of the text as often. -/
theorem utf8ByteSize_repeated (s : String) (n : Nat) :
    (repeated s n).utf8ByteSize = s.utf8ByteSize * n := by
  fun_induction repeated s n with
  | case1 => rfl
  | case2 n hn half heven ih =>
    rw [String.utf8ByteSize_append, ih, ← Nat.mul_add]
    congr 1
    omega
  | case3 n hn half hodd ih =>
    rw [String.utf8ByteSize_append, String.utf8ByteSize_append, ih, ← Nat.mul_add, ← Nat.mul_succ]
    congr 1
    omega

/-- A text is repeated if the product of the words that stand for its length and for the count is
within the limit. -/
theorem repeatText_eq (s : String) (x : Float) :
    repeatText s x
      = if min s.utf8ByteSize (UInt64.size - 1) * (repeatCount x).toNat ≤ maxTextBytes
        then .ok (.text (repeated s (repeatCount x).toNat))
          else .error (.textTooLong maxTextBytes) := by
  rw [repeatText, ← toNat_ofNatClamp]
  generalize repeatCount x = count
  by_cases hempty : s = "" ∨ count = 0
  · have hrepeated : repeated s count.toNat = "" := by
      rw [← String.utf8ByteSize_eq_zero_iff, utf8ByteSize_repeated]
      rcases hempty with rfl | rfl <;> simp
    have hproduct : (UInt64.ofNatClamp s.utf8ByteSize).toNat * count.toNat = 0 := by
      rcases hempty with rfl | rfl <;> simp [UInt64.ofNatClamp]
    rw [if_pos (by simpa using hempty), hproduct, if_pos (Nat.zero_le _), hrepeated]
  · rw [if_neg (by simpa using hempty), wordProduct?]
    by_cases hfits : (UInt64.ofNatClamp s.utf8ByteSize).toNat * count.toNat < UInt64.size
    · rw [if_pos hfits]
      simp only [UInt64.toNat_mul, Nat.mod_eq_of_lt hfits]
    · have hlimit : maxTextBytes < UInt64.size := by decide
      rw [if_neg hfits, if_neg (by omega)]

end Value

open Number

/-- A text times a number, in either order, is the text written as often as the number says when
rounded up, if that is within the limit in exact arithmetic. Otherwise it is refused as too large.
The two cases exclude each other, so no word that is cut off or refused on the way makes a long text
short, or a fitting one an error. -/
theorem repetition_is_exact (s : String) (x : Float) :
    Value.mul (.number x) (.text s) = Value.mul (.text s) (.number x) ∧
    ((s = "" ∨ timesOf x = 0 ∨ (s.utf8ByteSize : ℕ∞) * timesOf x ≤ 2 ^ 28) ∧
        (∃ t, Value.mul (.text s) (.number x) = .ok (.text t) ∧
          t.toList = (List.replicate (timesOf x).toNat s.toList).flatten ∧
          (t.utf8ByteSize : ℕ∞) = s.utf8ByteSize * timesOf x) ∨
      ¬ (s = "" ∨ timesOf x = 0 ∨ (s.utf8ByteSize : ℕ∞) * timesOf x ≤ 2 ^ 28) ∧
        ∃ fault, Value.mul (.text s) (.number x) = .error fault ∧ fault.kind = .tooLarge) := by
  have hlimit : ((Value.maxTextBytes : ℕ) : ℕ∞) = 2 ^ 28 := by
    rw [show Value.maxTextBytes = 2 ^ 28 from rfl]
    norm_cast
  refine ⟨rfl, ?_⟩
  show _ ∧ (∃ t, Value.repeatText s x = _ ∧ _) ∨ _ ∧ ∃ fault, Value.repeatText s x = _ ∧ _
  rw [Value.repeatText_eq]
  -- The check in words is as good as one in exact arithmetic.
  by_cases hfits : (s.utf8ByteSize : ℕ∞) * timesOf x ≤ (Value.maxTextBytes : ℕ)
  · rw [if_pos ((Value.clamp_mul_clamp_le_iff _ x).mpr hfits)]
    refine .inl ⟨.inr (.inr (hlimit ▸ hfits)), _, rfl, ?_, ?_⟩
    · rw [Value.toList_repeated]
      by_cases hempty : s = ""
      · simp [hempty]
      -- A text that is not empty fits only if the count was not cut off.
      · have hlength : s.utf8ByteSize ≠ 0 := mt String.utf8ByteSize_eq_zero_iff.mp hempty
        rw [← Value.toNat_repeatCount_of_fits hlength hfits, ENat.toNat_natCast]
    · rw [Value.utf8ByteSize_repeated, Nat.cast_mul]
      by_cases hlength : s.utf8ByteSize = 0
      · simp [hlength]
      · rw [Value.toNat_repeatCount_of_fits hlength hfits]
  · rw [if_neg (mt (Value.clamp_mul_clamp_le_iff _ x).mp hfits)]
    refine .inr ⟨?_, _, rfl, rfl⟩
    rintro (rfl | hzero | hle)
    · exact hfits (by simp)
    · exact hfits (by simp [hzero])
    · exact hfits (hlimit ▸ hle)

end Script

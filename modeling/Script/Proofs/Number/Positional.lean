import Mathlib.Data.List.TakeWhile
import Script.Proofs.Token.Denotation

/-!
# Positional digits

Whole numbers and decimals are written in positional digits. `Decimal.digits` is undone by
`Decimal.ofDigits`, and has no zero in front of other digits.

A number that is finite and not negative is written as digits, or as digits around a point
(`positional_text`). The text of such a form means the same to everyone who reads it: the number
that its two runs of digits denote (`Positional.read?_eq`).
-/

namespace Script.Number

namespace Decimal

theorem digits_ne_nil (n : Nat) : digits n ≠ [] := Nat.toDigits_ne_nil

theorem isDigit_of_mem_digits {n : Nat} {c : Char} (h : c ∈ digits n) : c.isDigit :=
  Nat.isDigit_of_mem_toDigits (by decide) (Nat.le_refl 10) h

/-- Zeros are digits. -/
theorem isDigit_of_mem_zeros {n : Nat} {c : Char} (h : c ∈ List.replicate n '0') : c.isDigit := by
  rw [List.eq_of_mem_replicate h]
  rfl

/-- A number is what its digits denote. -/
@[simp]
theorem ofDigits_digits (n : Nat) : ofDigits (digits n) = n := by
  rw [ofDigits, digits, ← Nat.ofDigitChars_eq_foldl, Nat.ofDigitChars_ten_toDigits]

theorem digits_injective {m n : Nat} (h : digits m = digits n) : m = n := by
  rw [← ofDigits_digits m, h, ofDigits_digits]

theorem toList_repr (n : Nat) : (toString n).toList = digits n := by
  rw [show toString n = n.repr from rfl, Nat.repr_eq_ofList_toDigits, String.toList_ofList, digits]

/-- The first digit is a zero only if the number is. -/
theorem ne_zero_of_digits {n : Nat} {c : Char} {cs : List Char} (hn : n ≠ 0)
    (h : digits n = c :: cs) :
    c ≠ '0' := by
  induction n using Nat.strongRecOn generalizing cs with
  | ind n ih =>
    rw [digits, Nat.toDigits_eq_if (by decide)] at h
    split at h
    · obtain ⟨rfl, -⟩ := List.cons.inj h
      exact fun hzero => hn (Nat.digitChar_eq_zero.mp hzero)
    · -- A number of several digits starts as the number without its last digit does.
      obtain ⟨first, rest, hfront⟩ := List.exists_cons_of_ne_nil (digits_ne_nil (n / 10))
      obtain rfl : first = c := by
        rw [← digits, hfront, List.cons_append] at h
        exact (List.cons.inj h).1
      exact ih (n / 10) (by omega) (by omega) hfront

end Decimal

/-- The text is a run of digits, or has a second one behind a point. -/
inductive Positional : List Char → List Char → List Char → Prop
  | whole {ds : List Char} (hne : ds ≠ []) (hds : ∀ d ∈ ds, d.isDigit) : Positional ds ds []
  | point {ds fs : List Char} (hne : ds ≠ []) (hds : ∀ d ∈ ds, d.isDigit)
      (hfs : ∀ d ∈ fs, d.isDigit) :
      Positional (ds ++ '.' :: fs) ds fs

/-- Decimals are written in positional digits. -/
theorem Decimal.positional_plain (d : Decimal) :
    ∃ whole fraction, Positional d.plain whole fraction := by
  have hdigits : ∀ c ∈ digits d.significand, c.isDigit := fun _ => isDigit_of_mem_digits
  have hzeros : ∀ n, ∀ c ∈ List.replicate n '0', c.isDigit := fun _ _ => isDigit_of_mem_zeros
  unfold plain
  simp only
  split
  · exact ⟨_, _, .whole (by simp [digits_ne_nil]) (List.forall_mem_append.mpr ⟨hdigits, hzeros _⟩)⟩
  · split
    next hplaces =>
      refine ⟨_, _, .point (fun hnil => ?_) (fun c hc => hdigits c (List.mem_of_mem_take hc))
        fun c hc => hdigits c (List.mem_of_mem_drop hc)⟩
      have hlength := congrArg List.length hnil
      rw [List.length_take, List.length_nil] at hlength
      omega
    next =>
      exact ⟨_, _, .point (List.cons_ne_nil '0' []) (List.forall_mem_singleton.mpr rfl)
        (List.forall_mem_append.mpr ⟨hzeros _, hdigits⟩)⟩

/-- Such a text starts with a digit. -/
theorem Positional.exists_cons {text whole fraction : List Char}
    (h : Positional text whole fraction) :
    ∃ c cs, text = c :: cs ∧ c.isDigit := by
  cases h with
  | whole hne hds =>
    obtain ⟨c, cs, rfl⟩ := List.exists_cons_of_ne_nil hne
    exact ⟨c, cs, rfl, hds c List.mem_cons_self⟩
  | point hne hds =>
    obtain ⟨c, cs, rfl⟩ := List.exists_cons_of_ne_nil hne
    exact ⟨c, _, rfl, hds c List.mem_cons_self⟩

/-- In a source, positional digits are a numeral. -/
theorem Positional.denotes {text whole fraction : List Char} (h : Positional text whole fraction) :
    Denotes text (.number (ofParts whole fraction)) := by
  cases h with
  | whole hne hds =>
    obtain ⟨c, cs, rfl⟩ := List.exists_cons_of_ne_nil hne
    exact .whole hds
  | point hne hds hfs =>
    obtain ⟨c, cs, rfl⟩ := List.exists_cons_of_ne_nil hne
    exact .decimal hds hfs

/-- Such a text is read as what its two runs of digits denote. -/
theorem Positional.readNumeral?_eq {text whole fraction : List Char}
    (h : Positional text whole fraction) :
    readNumeral? text = some (ofParts whole fraction) := by
  have hpoint : Char.isDigit '.' = false := by decide
  unfold readNumeral?
  cases h with
  | whole hne hds =>
    rw [List.takeWhile_eq_self_iff.mpr hds, List.dropWhile_eq_nil_iff.mpr hds]
    simp [hne, readExponent?, ofParts]
  | point hne hds hfs =>
    rw [List.takeWhile_append_of_pos hds, List.dropWhile_append_of_pos hds,
      List.takeWhile_cons_of_neg (by simp [hpoint]), List.dropWhile_cons_of_neg (by simp [hpoint])]
    simp [hne, List.takeWhile_eq_self_iff.mpr hfs, List.dropWhile_eq_nil_iff.mpr hfs,
      readExponent?, ofParts]

/-- A digit has no case. -/
theorem toLower_of_isDigit {c : Char} (h : c.isDigit) : c.toLower = c := by
  have hupper : ¬ (c.val ≥ 65 ∧ c.val ≤ 90) :=
    of_decide_eq_false (Bool.or_eq_false_iff.mp (isAlpha_eq_false_of_isDigit h)).1
  exact dif_neg hupper

/-- Such a text has no sign, and is none of the names of numbers that have no digits. -/
theorem Positional.read?_eq {text whole fraction : List Char} (h : Positional text whole fraction) :
    read? (String.ofList text) = some (ofParts whole fraction) := by
  obtain ⟨c, cs, htext, hc⟩ := h.exists_cons
  have hsign : splitSign text = (false, text) := by
    rw [htext, splitSign]
    all_goals
      rintro ds hds
      obtain ⟨rfl, -⟩ := List.cons.inj hds
      cases hc
  have hname : ∀ {d : Char} {ds : List Char}, d.isAlpha →
      String.ofList (text.map Char.toLower) ≠ String.ofList (d :: ds) := by
    intro d ds hd heq
    rw [htext, List.map_cons] at heq
    have hlower : c.toLower = d := (List.cons.inj (String.ofList_injective heq)).1
    rw [← hlower, toLower_of_isDigit hc, isAlpha_eq_false_of_isDigit hc] at hd
    cases hd
  have hinf : ¬ (String.ofList (text.map Char.toLower) = "inf" ∨
      String.ofList (text.map Char.toLower) = "infinity") :=
    not_or.mpr ⟨hname rfl, hname rfl⟩
  have hnan : String.ofList (text.map Char.toLower) ≠ "nan" := hname rfl
  unfold read?
  rw [String.toList_ofList, hsign]
  simp only [if_neg hinf, if_neg hnan, h.readNumeral?_eq]
  simp

/-! ## Finite numbers -/

open Float.Model in
/-- The eleven bits above the fraction are the exponent's. -/
theorem toNat_unpackExponent (bits : BitVec 64) :
    (@UnpackedFloat.unpackExponent Format.binary64 bits).toNat
      = bits.toNat / Nat.pow 2 52 % 2048 := by
  show (BitVec.extractLsb' 52 11 bits).toNat = _
  rw [BitVec.extractLsb'_toNat, Nat.shiftRight_eq_div_pow]

open Float.Model in
/-- The bits of the exponent are all set in the infinities and NaN only. -/
theorem isFinite_iff {x : Float} : x.isFinite ↔ x.toBits.toNat / Nat.pow 2 52 % 2048 ≠ 2047 := by
  have hexponent : (@UnpackedFloat.unpackExponent Format.binary64 x.toBits.toBitVec).toNat =
      x.toBits.toNat / Nat.pow 2 52 % 2048 := toNat_unpackExponent x.toBits.toBitVec
  rw [← hexponent]
  show (UnpackedFloat.unpack Format.binary64 x.toBits.toBitVec).isFinite ↔ _
  unfold UnpackedFloat.unpack
  by_cases hset : @UnpackedFloat.unpackExponent Format.binary64 x.toBits.toBitVec = -1#_
  · refine iff_of_false ?_ (not_not.mpr (BitVec.toNat_inj.mpr hset))
    rw [if_pos hset]
    split <;> exact Bool.false_ne_true
  · refine iff_of_true ?_ fun hfield => hset (BitVec.toNat_inj.mp hfield)
    rw [if_neg hset]
    by_cases hclear : @UnpackedFloat.unpackExponent Format.binary64 x.toBits.toBitVec = 0#_
    · rw [if_pos hclear]
      by_cases hzero : @UnpackedFloat.unpackMantissa Format.binary64 x.toBits.toBitVec = 0#_
      · rw [dif_pos hzero]
        rfl
      · rw [dif_neg hzero]
        rfl
    · rw [if_neg hclear]
      rfl

/-- A finite number is no NaN. -/
theorem not_isNaN_of_isFinite {x : Float} (h : x.isFinite) : x.isNaN = false := by
  unfold Float.isFinite Float.Model.isFinite at h
  unfold Float.isNaN Float.Model.isNaN
  cases hx : x.toModel.unpack with
  | notANumber =>
    rw [hx] at h
    cases h
  | _ => rfl

/-- A finite number has a magnitude. -/
theorem exists_magnitude {x : Float} (h : x.isFinite) : ∃ m, Magnitude.ofFloat? x = some m := by
  unfold Magnitude.ofFloat?
  rw [if_neg (isFinite_iff.mp h)]
  split <;> exact ⟨_, rfl⟩

/-- A number that is finite and not negative is written in positional digits. -/
theorem positional_text {x : Float} (hfinite : x.isFinite) (hsign : isNegative x = false) :
    ∃ whole fraction, Positional (text x).toList whole fraction := by
  obtain ⟨m, hm⟩ := exists_magnitude hfinite
  unfold text
  rw [not_isNaN_of_isFinite hfinite, hm, hsign]
  simp only [Bool.false_eq_true, if_false]
  split
  · exact ⟨['0'], [], .whole (List.cons_ne_nil '0' []) (List.forall_mem_singleton.mpr rfl)⟩
  · simpa using Decimal.positional_plain _

end Script.Number

import Mathlib.Algebra.Order.Ring.Nat
import Mathlib.Algebra.Ring.Int.Defs
import Mathlib.Data.List.Basic
import Script.Json.Printer
import Script.Json.Reader
import Script.Proofs.Number.Positional

/-!
# Numerals of JSON

Digits in front of the point start with a zero only if they are nothing else. A numeral for which
this holds is read just as it is written (`readNumeral_write`), in front of anything that does not
make it longer.

The numerals that are written are of this kind. For counts this is a property of `Decimal.digits`.
For numbers it rests on the choice of digits: the decimal that is written for a number is zero only
if the number is (`shortest_ne_zero`), since digits are tried from the leading one on.
-/

namespace Script

namespace Number.Decimal

/-- A number is less than the power of ten that has one digit more. -/
theorem lt_pow_digitCount (n : Nat) : n < 10 ^ digitCount n :=
  (Nat.length_toDigits_le_iff (by decide) Nat.length_toDigits_pos).mp (Nat.le_refl _)

/-- A number is at least the power of ten that has as many digits. -/
theorem pow_digitCount_le {n : Nat} (hn : n ≠ 0) : 10 ^ (digitCount n - 1) ≤ n := by
  by_contra hlt
  by_cases hone : digitCount n = 1
  · rw [hone] at hlt
    omega
  · have hpos : 0 < digitCount n := Nat.length_toDigits_pos
    have hle : digitCount n ≤ digitCount n - 1 :=
      (Nat.length_toDigits_le_iff (by decide) (by omega)).mpr (Nat.lt_of_not_le hlt)
    omega

/-- The numerator of a magnitude is zero only if its mantissa is. -/
theorem numerator_ne_zero {m : Magnitude} (hm : m.mantissa ≠ 0) : m.numerator ≠ 0 :=
  Nat.mul_ne_zero hm (Nat.pow_pos (by decide)).ne'

/-- On the grid of its leading digit, a magnitude is at least one unit. -/
theorem unit_le_of_leadingExponent {m : Magnitude} (hm : m.mantissa ≠ 0) :
    m.denominator * 10 ^ (leadingExponent m).toNat
      ≤ m.numerator * 10 ^ (-leadingExponent m).toNat := by
  unfold leadingExponent
  split
  next hle =>
    have hquotient : m.numerator / m.denominator ≠ 0 := (Nat.div_pos hle m.denominator_pos).ne'
    have hpos : 0 < digitCount (m.numerator / m.denominator) := Nat.length_toDigits_pos
    generalize hcount : digitCount (m.numerator / m.denominator) = count at hpos ⊢
    have hexponent : ((count : Int) - 1).toNat = count - 1 ∧ (-((count : Int) - 1)).toNat = 0 := by
      omega
    rw [hexponent.1, hexponent.2, pow_zero, Nat.mul_one, ← hcount]
    calc m.denominator * 10 ^ (digitCount (m.numerator / m.denominator) - 1)
        ≤ m.denominator * (m.numerator / m.denominator) :=
          Nat.mul_le_mul_left _ (pow_digitCount_le hquotient)
      _ ≤ m.numerator := Nat.mul_div_le _ _
  next hlt =>
    rw [neg_neg, Int.toNat_neg_natCast, Int.toNat_natCast, pow_zero, Nat.mul_one]
    calc m.denominator ≤ m.numerator * (m.denominator / m.numerator + 1) :=
          (Nat.lt_mul_div_succ _ (Nat.pos_of_ne_zero (numerator_ne_zero hm))).le
      _ ≤ m.numerator * 10 ^ digitCount (m.denominator / m.numerator) :=
          Nat.mul_le_mul_left _ (lt_pow_digitCount _)

/-- So it is on finer grids. -/
theorem neighbours_ne_zero {tie : Tie} {m : Magnitude} (hm : m.mantissa ≠ 0) {n : Nat} {d : Decimal}
    (hd : d ∈ neighbours tie m (leadingExponent m - n)) : d.significand ≠ 0 := by
  have hunit : m.denominator * Nat.pow 10 (leadingExponent m - n).toNat ≤
      m.numerator * Nat.pow 10 (-(leadingExponent m - n)).toNat :=
    calc m.denominator * 10 ^ (leadingExponent m - n).toNat
        ≤ m.denominator * 10 ^ (leadingExponent m).toNat :=
          Nat.mul_le_mul_left _ (Nat.pow_le_pow_right (by decide) (by omega))
      _ ≤ m.numerator * 10 ^ (-leadingExponent m).toNat := unit_le_of_leadingExponent hm
      _ ≤ m.numerator * 10 ^ (-(leadingExponent m - n)).toNat :=
          Nat.mul_le_mul_left _ (Nat.pow_le_pow_right (by decide) (by omega))
  have hbelow := Nat.div_pos hunit (Nat.mul_pos m.denominator_pos (Nat.pow_pos (by decide)))
  -- Which of the two neighbours comes first does not matter.
  have hpair : ∀ {swap : Bool} {below above : Decimal},
      d ∈ (if swap then [above, below] else [below, above]) → d = below ∨ d = above := by
    intro swap below above h
    cases swap
    · exact List.mem_pair.mp h
    · exact (List.mem_pair.mp h).symm
  rcases hpair hd with rfl | rfl
  · exact hbelow.ne'
  · exact Nat.succ_ne_zero _

/-- Zeros at the end are not all there is of a number. -/
theorem trimZeros_ne_zero {d : Decimal} (hd : d.significand ≠ 0) (fuel : Nat) :
    (trimZeros fuel d).significand ≠ 0 := by
  induction fuel generalizing d with
  | zero => exact hd
  | succ fuel ih =>
    rw [trimZeros]
    split
    · exact ih (d := ⟨d.significand / 10, d.exponent + 1⟩) (by simp only; omega)
    · exact hd

/-- Only zero is written with the digit zero alone. -/
theorem shortest_ne_zero (tie : Tie) (x : Float) {m : Magnitude} (hm : m.mantissa ≠ 0) :
    (shortest tie x m).significand ≠ 0 := by
  unfold shortest
  simp only
  split
  next d hfound =>
    apply trimZeros_ne_zero
    obtain ⟨n, -, hfind⟩ := List.exists_of_findSome?_eq_some hfound
    exact neighbours_ne_zero hm (List.mem_of_find?_eq_some hfind)
  next =>
    unfold exact
    split
    · exact numerator_ne_zero hm
    · exact Nat.mul_ne_zero hm (Nat.pow_pos (by decide)).ne'

end Number.Decimal

namespace Json

open Number (Decimal)

/-! ## Reading what is written -/

/-- What can stand behind a value. None of it makes a numeral longer. -/
def endsValue (c : Char) : Bool := isBlank c || c = ',' || c = ']' || c = '\x7d'

/-- What stands behind a value does not belong to it. -/
def Ends (rest : List Char) : Prop := ∀ c ∈ rest.head?, endsValue c

namespace Numeral

/-- The digits stand as they do in a text. -/
structure WellFormed (n : Numeral) : Prop where
  whole : n.whole ≠ [] ∧ ∀ d ∈ n.whole, d.isDigit
  /-- There are no zeros in front. -/
  leading : ∀ d ds, n.whole ≠ '0' :: d :: ds
  fraction : ∀ d ∈ n.fraction, d.isDigit

end Numeral

/-- Digits are read up to what is none. -/
theorem readDigits_append {ds rest : List Char} (hne : ds ≠ []) (hds : ∀ d ∈ ds, d.isDigit)
    (hrest : ∀ c ∈ rest.head?, c.isDigit = false) : readDigits (ds ++ rest) = some (ds, rest) := by
  have htake : rest.takeWhile Char.isDigit = [] := by
    cases rest with
    | nil => rfl
    | cons c cs => exact List.takeWhile_cons_of_neg (by simp [hrest c rfl])
  have hdrop : rest.dropWhile Char.isDigit = rest := by
    cases rest with
    | nil => rfl
    | cons c cs => exact List.dropWhile_cons_of_neg (by simp [hrest c rfl])
  rw [readDigits, List.takeWhile_append_of_pos hds, List.dropWhile_append_of_pos hds, htake, hdrop,
    List.append_nil]
  obtain ⟨d, ds, rfl⟩ := List.exists_cons_of_ne_nil hne
  rfl

/-- A value is ended by a blank, a comma or a closing bracket. -/
theorem endsValue_iff {c : Char} : endsValue c ↔
    c = ' ' ∨ c = '\n' ∨ c = '\t' ∨ c = '\r' ∨ c = ',' ∨ c = ']' ∨ c = '\x7d' := by
  simp [endsValue, isBlank, or_assoc]

/-- None of what ends a value goes on with a numeral. -/
theorem Ends.head_ne {rest : List Char} (h : Ends rest) {c : Char} (hc : c ∈ rest.head?) :
    c.isDigit = false ∧ c ≠ '.' ∧ c ≠ 'e' ∧ c ≠ 'E' := by
  rcases endsValue_iff.mp (h c hc) with rfl | rfl | rfl | rfl | rfl | rfl | rfl <;> decide

/-- What ends a value is no exponent. -/
theorem Ends.readExponent_eq {rest : List Char} (h : Ends rest) :
    readExponent rest = some (none, rest) := by
  cases rest with
  | nil => rfl
  | cons c cs =>
    obtain ⟨-, -, hlower, hupper⟩ := h.head_ne rfl
    rw [readExponent]
    · exact fun cs' hcs => hlower (List.cons.inj hcs).1
    · exact fun cs' hcs => hupper (List.cons.inj hcs).1

/-- An exponent is read with its sign. -/
theorem Ends.readExponent_digits {rest : List Char} (h : Ends rest) (e : Int) :
    readExponent ('e' :: (if e < 0 then '-' else '+') :: Decimal.digits e.natAbs ++ rest) =
      some (some e, rest) := by
  have hdigits : readDigits (Decimal.digits e.natAbs ++ rest)
      = some (Decimal.digits e.natAbs, rest) :=
    readDigits_append (Decimal.digits_ne_nil _) (fun _ => Decimal.isDigit_of_mem_digits)
      fun c hc => (h.head_ne hc).1
  simp only [List.cons_append, readExponent]
  split
  · simp only [readSigned, hdigits, Option.map_some, Decimal.ofDigits_digits]
    congr 4
    omega
  · simp only [readSigned, hdigits, Option.map_some, Decimal.ofDigits_digits]
    congr 4
    omega

/-- A fraction is read if there is one. -/
theorem readFraction_append {fraction rest : List Char} (hfraction : ∀ d ∈ fraction, d.isDigit)
    (hrest : ∀ c ∈ rest.head?, c.isDigit = false ∧ c ≠ '.') :
    readFraction ((if fraction = [] then [] else '.' :: fraction) ++ rest)
      = some (fraction, rest) := by
  split
  next hnil =>
    subst hnil
    rw [List.nil_append, readFraction]
    rintro cs rfl
    exact (hrest '.' rfl).2 rfl
  next hne => exact readDigits_append hne hfraction fun c hc => (hrest c hc).1

/-- The digits in front of the point are read, as they do not start with a zero for nothing. -/
theorem Numeral.WellFormed.readWhole_eq {n : Numeral} (h : n.WellFormed) {rest : List Char}
    (hrest : ∀ c ∈ rest.head?, c.isDigit = false) :
    readWhole (n.whole ++ rest) = some (n.whole, rest) := by
  rw [readWhole, readDigits_append h.whole.1 h.whole.2 hrest]
  split
  next d ds _ heq => exact absurd (congrArg Prod.fst (Option.some.inj heq)) (h.leading d ds)
  next => rfl

/-- A numeral is read as it is written. -/
theorem readNumeral_write {n : Numeral} (h : n.WellFormed) {rest : List Char} (hrest : Ends rest) :
    readNumeral (n.write ++ rest) = some (n, rest) := by
  -- The exponent, if there is one, and what follows are read last, and stop the digits before them.
  obtain ⟨tail, hwrite, hexponent, htail⟩ : ∃ tail,
      n.write ++ rest = (if n.negative then ['-'] else []) ++ (n.whole ++
        ((if n.fraction = [] then [] else '.' :: n.fraction) ++ tail)) ∧
      readExponent tail = some (n.exponent, rest) ∧
      ∀ c ∈ tail.head?, c.isDigit = false ∧ c ≠ '.' := by
    unfold Numeral.write
    cases n.exponent with
    | none =>
      refine ⟨rest, by simp, hrest.readExponent_eq, fun c hc => ?_⟩
      exact ⟨(hrest.head_ne hc).1, (hrest.head_ne hc).2.1⟩
    | some e =>
      refine ⟨_, by simp only [List.append_assoc], hrest.readExponent_digits e, fun c hc => ?_⟩
      obtain rfl : 'e' = c := by simpa using hc
      decide
  have hfraction := readFraction_append h.fraction htail
  have hbehind : ∀ c ∈ ((if n.fraction = [] then [] else '.' :: n.fraction) ++ tail).head?,
      c.isDigit = false := by
    intro c hc
    split at hc
    · exact (htail c hc).1
    · obtain rfl : '.' = c := by simpa using hc
      decide
  have hunsigned : ∀ negative, readUnsigned negative (n.whole ++
      ((if n.fraction = [] then [] else '.' :: n.fraction) ++ tail)) =
        some (⟨negative, n.whole, n.fraction, n.exponent⟩, rest) := by
    intro negative
    simp [readUnsigned, h.readWhole_eq hbehind, hfraction, hexponent]
  rw [hwrite]
  cases hnegative : n.negative with
  | true =>
    simp only [if_true, List.singleton_append, readNumeral, hunsigned]
    rw [← hnegative]
  | false =>
    simp only [Bool.false_eq_true, if_false, List.nil_append]
    rw [readNumeral, hunsigned, ← hnegative]
    -- The first character is a digit and no sign.
    intro cs hcs
    obtain ⟨d, ds, hwhole⟩ := List.exists_cons_of_ne_nil h.whole.1
    rw [hwhole, List.cons_append] at hcs
    have hd := h.whole.2 d (hwhole ▸ List.mem_cons_self)
    rw [(List.cons.inj hcs).1] at hd
    cases hd

/-! ## What is written -/

namespace Numeral

/-- The first digits of a number that is not zero do not start with a zero. -/
theorem leading_of_digits {n : Nat} (hn : n ≠ 0) {front : List Char}
    (hfront : front <+: Decimal.digits n)
    (hne : front ≠ []) (zeros : List Char) (d : Char) (ds : List Char) :
    front ++ zeros ≠ '0' :: d :: ds := by
  obtain ⟨c, cs, rfl⟩ := List.exists_cons_of_ne_nil hne
  obtain ⟨rest, hrest⟩ := hfront
  intro heq
  exact Decimal.ne_zero_of_digits hn hrest.symm (List.cons.inj heq).1

/-- The numeral of a count is well-formed. -/
theorem wellFormed_ofNat (n : Nat) : (ofNat n).WellFormed where
  whole := ⟨Decimal.digits_ne_nil n, fun _ => Decimal.isDigit_of_mem_digits⟩
  leading := by
    intro d ds heq
    by_cases hn : n = 0
    · subst hn
      cases heq
    · exact Decimal.ne_zero_of_digits hn heq rfl
  fraction := fun _ hd => absurd hd List.not_mem_nil

/-- A decimal that is not zero has a well-formed numeral with its digits in place. -/
theorem wellFormed_positional {d : Decimal} (hd : d.significand ≠ 0) (negative : Bool) :
    (positional negative d).WellFormed := by
  have hne := Decimal.digits_ne_nil d.significand
  have hdigits : ∀ c ∈ Decimal.digits d.significand, c.isDigit :=
    fun _ => Decimal.isDigit_of_mem_digits
  have hzeros : ∀ n, ∀ c ∈ List.replicate n '0', c.isDigit :=
    fun _ _ => Decimal.isDigit_of_mem_zeros
  unfold positional
  simp only
  split
  -- The exponent says which of three ways the digits are written: with zeros behind them, with a
  -- point between them, or with zeros in front.
  next =>
    constructor
    · exact ⟨by simp [hne], List.forall_mem_append.mpr ⟨hdigits, hzeros _⟩⟩
    · exact leading_of_digits hd (List.prefix_refl _) hne _
    · exact hzeros 1
  next =>
    split
    next hplaces =>
      have hfront : (Decimal.digits d.significand).take
          ((Decimal.digits d.significand).length - (-d.exponent).toNat) ≠ [] := by
        rw [← List.length_pos_iff, List.length_take]
        omega
      constructor
      · exact ⟨hfront, fun c hc => hdigits c (List.mem_of_mem_take hc)⟩
      · have hleading := leading_of_digits hd (List.take_prefix _ _) hfront []
        rwa [List.append_nil] at hleading
      · exact fun c hc => hdigits c (List.mem_of_mem_drop hc)
    next =>
      constructor
      · exact ⟨List.cons_ne_nil '0' [], hzeros 1⟩
      · intro c cs heq
        cases heq
      · exact List.forall_mem_append.mpr ⟨hzeros _, hdigits⟩

/-- Every decimal has a well-formed numeral with an exponent. -/
theorem wellFormed_scientific (negative : Bool) (d : Decimal) :
    (scientific negative d).WellFormed := by
  obtain ⟨c, cs, hcs⟩ := List.exists_cons_of_ne_nil (Decimal.digits_ne_nil d.significand)
  have hdigits : ∀ b ∈ c :: cs, b.isDigit := by
    rw [← hcs]
    exact fun _ => Decimal.isDigit_of_mem_digits
  unfold scientific
  rw [hcs]
  constructor
  · exact ⟨List.cons_ne_nil c [], fun b hb => hdigits b (List.mem_of_mem_take hb)⟩
  · intro b bs heq
    cases heq
  · exact fun b hb => hdigits b (List.mem_of_mem_drop hb)

/-- Whatever is written for a number is well-formed. -/
theorem wellFormed_ofFloat? {x : Float} {n : Numeral} (h : ofFloat? x = some n) : n.WellFormed := by
  unfold ofFloat? at h
  split at h
  next => cases h
  next =>
    obtain ⟨m, -, rfl⟩ := Option.map_eq_some_iff.mp h
    split
    next =>
      constructor
      · exact ⟨List.cons_ne_nil '0' [], List.forall_mem_singleton.mpr rfl⟩
      · intro d ds heq
        cases heq
      · exact List.forall_mem_singleton.mpr rfl
    next hm =>
      unfold ofDecimal
      simp only
      split
      · exact wellFormed_positional (Decimal.shortest_ne_zero _ _ hm) _
      · exact wellFormed_scientific _ _

end Numeral

end Json

end Script

import Mathlib
import Script.Value

/-!
# When values are equal

Equality of values is symmetric and transitive, and a value is equal to itself exactly if there is
no NaN in it. Values of different types are never equal, and lists are compared item by item.

All this comes from numbers. Two of them are equal exactly if they are worth the same, where both
zeros are worth the same and NaN is worth nothing (`Number.beq_iff`).
-/

namespace Script

open Float.Model (UnpackedFloat)

/-! ## Numbers -/

namespace Number

/-- What stands for an unpacked number in comparisons: there is one zero only, and nothing stands
for NaN. -/
def worthOf? : UnpackedFloat → Option UnpackedFloat
  | .notANumber => none
  | .zero _ => some (.zero .positive)
  | x => some x

/-- What a number is worth in comparisons. -/
def worth? (x : Float) : Option UnpackedFloat := worthOf? x.toModel.unpack

/-- NaN is what is worth nothing. -/
theorem worth?_eq_none_iff {x : Float} : worth? x = none ↔ x.isNaN := by
  show worthOf? x.toModel.unpack = none ↔ x.toModel.unpack.isNaN = true
  rw [UnpackedFloat.isNaN_iff]
  cases x.toModel.unpack <;> simp [worthOf?]

/-- Unpacked numbers are equal if they are worth the same. -/
theorem beq_iff_worthOf? (a b : UnpackedFloat) :
    a.beq b ↔ ∃ worth, worthOf? a = some worth ∧ worthOf? b = some worth := by
  rw [UnpackedFloat.beq_iff_ne_notANumber_and_eq]
  cases a with
  | notANumber => simp [worthOf?]
  | infinity s => cases b <;> simp [worthOf?, eq_comm]
  | zero s =>
    -- The two zeros are the only numbers that are equal and not the same.
    cases b with
    | zero t => cases s <;> cases t <;> simp [worthOf?]
    | _ => simp [worthOf?]
  | finite s mantissa exponent => cases b <;> simp [worthOf?, eq_comm]

/-- Numbers are equal if they are worth the same. -/
theorem beq_iff {x y : Float} : x == y ↔ ∃ worth, worth? x = some worth ∧ worth? y = some worth :=
  beq_iff_worthOf? x.toModel.unpack y.toModel.unpack

/-- Equality of numbers is symmetric. -/
theorem beq_comm (x y : Float) : (x == y) = (y == x) := by
  rw [Bool.eq_iff_iff, beq_iff, beq_iff]
  exact exists_congr fun _ => and_comm

/-- Equality of numbers is transitive. -/
theorem beq_trans {x y z : Float} (hxy : x == y) (hyz : y == z) : x == z := by
  obtain ⟨worth, hx, hy⟩ := beq_iff.1 hxy
  obtain ⟨worth', hy', hz⟩ := beq_iff.1 hyz
  obtain rfl : worth = worth' := Option.some.inj (hy.symm.trans hy')
  exact beq_iff.2 ⟨worth, hx, hz⟩

/-- A number is equal to itself unless it is NaN. -/
theorem beq_self_iff {x : Float} : x == x ↔ ¬ x.isNaN := by
  rw [beq_iff, ← worth?_eq_none_iff, ← ne_eq, Option.ne_none_iff_exists']
  exact exists_congr fun _ => and_self_iff

end Number

/-! ## Values -/

/-- There is a NaN in a value: it is one, or there is one in an item of a list. -/
inductive Value.HasNaN : Value → Prop
  | number {x : Float} (h : x.isNaN) : HasNaN (.number x)
  | item {items : List Value} {v : Value} (hv : v ∈ items) (h : HasNaN v) : HasNaN (.list items)

namespace Value

/-- There is a NaN in a number if it is one. -/
theorem hasNaN_number {x : Float} : HasNaN (.number x) ↔ x.isNaN := by
  constructor
  · rintro ⟨h⟩
    exact h
  · exact .number

/-- There is a NaN in a list if there is one in an item. -/
theorem hasNaN_list {items : List Value} : HasNaN (.list items) ↔ ∃ v ∈ items, v.HasNaN := by
  constructor
  · rintro (_ | ⟨hv, h⟩)
    exact ⟨_, hv, h⟩
  · rintro ⟨v, hv, h⟩
    exact .item hv h

/-- Values of different types are never equal. -/
theorem type_eq_of_equals {v w : Value} (h : v.equals w) : v.type = w.type := by
  cases v <;> cases w <;> first | rfl | cases h

/-- Lists are equal if they have as many items and these are equal one by one. -/
theorem allEqual_iff {xs ys : List Value} : allEqual xs ys ↔
    xs.length = ys.length ∧ ∀ (i : Nat) (v w : Value), xs[i]? = some v →
      ys[i]? = some w → v.equals w := by
  induction xs generalizing ys with
  | nil =>
    cases ys with
    | nil => simp [allEqual]
    | cons y ys => simp [allEqual]
  | cons x xs ih =>
    cases ys with
    | nil => simp [allEqual]
    | cons y ys =>
      rw [allEqual, Bool.and_eq_true, ih, List.length_cons, List.length_cons, Nat.succ_inj]
      constructor
      -- The first items stand at position zero, the others one further.
      · rintro ⟨hhead, hlength, htail⟩
        refine ⟨hlength, fun i v w hv hw => ?_⟩
        cases i with
        | zero =>
          cases hv
          cases hw
          exact hhead
        | succ i => exact htail i v w hv hw
      · rintro ⟨hlength, h⟩
        exact ⟨h 0 x y rfl rfl, hlength, fun i => h (i + 1)⟩

mutual

/-- Equality of values is symmetric. -/
theorem equals_comm (v w : Value) : v.equals w = w.equals v := by
  cases v with
  | list xs =>
    cases w with
    | list ys => rw [equals, equals, allEqual_comm xs ys]
    | _ => rfl
  | number x =>
    cases w with
    | number y => exact Number.beq_comm x y
    | _ => rfl
  | text s =>
    cases w with
    | text t => exact BEq.comm
    | _ => rfl
  | function site =>
    cases w with
    | function site' => exact BEq.comm
    | _ => rfl
  | builtin b =>
    cases w with
    | builtin b' => exact BEq.comm
    | _ => rfl
  | null => cases w <;> rfl

/-- Equality of lists is symmetric. -/
theorem allEqual_comm (xs ys : List Value) : allEqual xs ys = allEqual ys xs := by
  cases xs with
  | nil => cases ys <;> rfl
  | cons x xs =>
    cases ys with
    | nil => rfl
    | cons y ys => rw [allEqual, allEqual, equals_comm x y, allEqual_comm xs ys]

end

mutual

/-- Equality of values is transitive. -/
theorem equals_trans {u v w : Value} (huv : u.equals v) (hvw : v.equals w) : u.equals w := by
  -- Values that are equal are of one type, which leaves one case for each.
  have hleft := type_eq_of_equals huv
  have hright := type_eq_of_equals hvw
  cases u with
  | list xs =>
    cases v with
    | list ys =>
      cases w with
      | list zs => exact allEqual_trans huv hvw
      | _ => cases hright
    | _ => cases hleft
  | number x =>
    cases v with
    | number y =>
      cases w with
      | number z => exact Number.beq_trans huv hvw
      | _ => cases hright
    | _ => cases hleft
  | text s =>
    cases v with
    | text t =>
      obtain rfl : s = t := eq_of_beq huv
      exact hvw
    | _ => cases hleft
  | function site =>
    cases v with
    | function site' =>
      obtain rfl : site = site' := eq_of_beq huv
      cases w with
      | function => exact hvw
      | _ => cases hright
    | _ => cases hleft
  | builtin b =>
    cases v with
    | builtin b' =>
      obtain rfl : b = b' := eq_of_beq huv
      exact hvw
    | _ => cases hleft
  | null =>
    cases v with
    | null => exact hvw
    | _ => cases hleft

/-- Equality of lists is transitive. -/
theorem allEqual_trans {xs ys zs : List Value} (hxy : allEqual xs ys) (hyz : allEqual ys zs) :
    allEqual xs zs := by
  cases xs with
  | nil =>
    cases ys with
    | nil => exact hyz
    | cons => cases hxy
  | cons x xs =>
    cases ys with
    | nil => cases hxy
    | cons y ys =>
      cases zs with
      | nil => cases hyz
      | cons z zs =>
        rw [allEqual, Bool.and_eq_true] at hxy hyz ⊢
        exact ⟨equals_trans hxy.1 hyz.1, allEqual_trans hxy.2 hyz.2⟩

end

mutual

/-- What has no NaN in it is equal to itself, and what has one is not. -/
theorem equals_self_iff (v : Value) : v.equals v ↔ ¬ v.HasNaN := by
  cases v with
  | number x =>
    rw [hasNaN_number]
    exact Number.beq_self_iff
  | list xs =>
    rw [hasNaN_list, equals, allEqual_self_iff xs]
    simp only [not_exists, not_and]
  | text s => exact iff_of_true (beq_self_eq_true s) (by rintro ⟨⟩)
  | function site => exact iff_of_true (beq_self_eq_true site) (by rintro ⟨⟩)
  | builtin b => exact iff_of_true (beq_self_eq_true b) (by rintro ⟨⟩)
  | null => exact iff_of_true rfl (by rintro ⟨⟩)

/-- A list is equal to itself unless there is a NaN in it. -/
theorem allEqual_self_iff (xs : List Value) : allEqual xs xs ↔ ∀ v ∈ xs, ¬ v.HasNaN := by
  cases xs with
  | nil => simp [allEqual]
  | cons x xs =>
    rw [allEqual, Bool.and_eq_true, equals_self_iff x, allEqual_self_iff xs, List.forall_mem_cons]

end

end Value

end Script

import Mathlib.Algebra.Order.Floor.Ring
import Mathlib.Algebra.Order.Group.Defs
import Mathlib.Algebra.BigOperators.Group.List.Basic
import Mathlib.Algebra.Order.BigOperators.Group.List
import Mathlib.Data.Rat.Floor
import Mathlib.Tactic.FieldSimp
import Mathlib.Tactic.Linarith
import Mathlib.Tactic.Ring
import Mathlib.Tactic.Positivity

/-!
# Fixed-point decimals

A `Decimal d` is a number with exactly `d` digits after the point, kept as a
whole count of units of `10 ^ -d`. A column that stores three decimals cannot
hold anything else, so the type is the invariant: whatever is written to such
a column has been rounded on the way in.

Rounding is to the nearest unit with ties going up, `⌊q * 10 ^ d + 1/2⌋`. The
one fact everything below rests on is that rounding commutes with adding a
number that already is a decimal: an accumulator on the grid may be rounded
after every addition and still ends where the sum of the rounded addends does.
-/

namespace Kit

/-- A decimal with `d` digits after the point, as a count of units. -/
@[ext]
structure Decimal (d : ℕ) where
  units : ℤ
deriving DecidableEq, Repr

namespace Decimal

variable {d : ℕ}

instance : Inhabited (Decimal d) := ⟨⟨0⟩⟩
instance : Zero (Decimal d) := ⟨⟨0⟩⟩
instance : Add (Decimal d) := ⟨fun x y => ⟨x.units + y.units⟩⟩
instance : Neg (Decimal d) := ⟨fun x => ⟨-x.units⟩⟩
instance : Sub (Decimal d) := ⟨fun x y => ⟨x.units - y.units⟩⟩
instance : LE (Decimal d) := ⟨fun x y => x.units ≤ y.units⟩
instance : LT (Decimal d) := ⟨fun x y => x.units < y.units⟩

@[simp] theorem units_zero : (0 : Decimal d).units = 0 := rfl
@[simp] theorem units_add (x y : Decimal d) :
    (x + y).units = x.units + y.units := rfl
@[simp] theorem units_neg (x : Decimal d) : (-x).units = -x.units := rfl
@[simp] theorem units_sub (x y : Decimal d) :
    (x - y).units = x.units - y.units := rfl

theorem le_iff {x y : Decimal d} : x ≤ y ↔ x.units ≤ y.units := Iff.rfl
theorem lt_iff {x y : Decimal d} : x < y ↔ x.units < y.units := Iff.rfl

instance (x y : Decimal d) : Decidable (x ≤ y) :=
  inferInstanceAs (Decidable (x.units ≤ y.units))
instance (x y : Decimal d) : Decidable (x < y) :=
  inferInstanceAs (Decidable (x.units < y.units))

instance : AddCommGroup (Decimal d) where
  add_assoc _ _ _ := Decimal.ext (Int.add_assoc ..)
  zero_add _ := Decimal.ext (Int.zero_add _)
  add_zero _ := Decimal.ext (Int.add_zero _)
  add_comm _ _ := Decimal.ext (Int.add_comm ..)
  neg_add_cancel _ := Decimal.ext (Int.add_left_neg _)
  sub_eq_add_neg _ _ := Decimal.ext Int.sub_eq_add_neg
  nsmul := nsmulRec
  zsmul := zsmulRec

instance : LinearOrder (Decimal d) where
  le_refl _ := Int.le_refl _
  le_trans _ _ _ := Int.le_trans
  le_antisymm _ _ h₁ h₂ := Decimal.ext (Int.le_antisymm h₁ h₂)
  le_total _ _ := Int.le_total ..
  lt_iff_le_not_ge _ _ := Int.lt_iff_le_and_not_ge
  toDecidableLE := inferInstance

instance : IsOrderedAddMonoid (Decimal d) where
  add_le_add_left _ _ h _ := Int.add_le_add_right h _

/-! ## The number a decimal stands for -/

def toRat (x : Decimal d) : ℚ := x.units / 10 ^ d

instance : CoeOut (Decimal d) ℚ := ⟨toRat⟩

theorem toRat_mul (x : Decimal d) : (x : ℚ) * 10 ^ d = x.units := by
  rw [toRat]
  field_simp

@[simp] theorem toRat_zero : ((0 : Decimal d) : ℚ) = 0 := by
  simp [toRat]

theorem toRat_add (x y : Decimal d) : ((x + y : Decimal d) : ℚ) = x + y := by
  simp only [toRat, units_add, Int.cast_add]
  ring

theorem toRat_neg (x : Decimal d) : ((-x : Decimal d) : ℚ) = -x := by
  simp only [toRat, units_neg, Int.cast_neg]
  ring

theorem toRat_sub (x y : Decimal d) : ((x - y : Decimal d) : ℚ) = x - y := by
  simp only [toRat, units_sub, Int.cast_sub]
  ring

theorem toRat_le {x y : Decimal d} : (x : ℚ) ≤ y ↔ x ≤ y := by
  rw [le_iff, toRat, toRat, div_le_div_iff_of_pos_right (by positivity)]
  exact Int.cast_le

theorem toRat_lt {x y : Decimal d} : (x : ℚ) < y ↔ x < y := by
  rw [lt_iff, toRat, toRat, div_lt_div_iff_of_pos_right (by positivity)]
  exact Int.cast_lt

theorem toRat_nonneg {x : Decimal d} : 0 ≤ (x : ℚ) ↔ 0 ≤ x := by
  rw [← toRat_zero (d := d), toRat_le]

theorem toRat_pos {x : Decimal d} : 0 < (x : ℚ) ↔ 0 < x := by
  rw [← toRat_zero (d := d), toRat_lt]

/-! ## Rounding -/

/-- The nearest decimal, a tie going up. -/
def round (d : ℕ) (q : ℚ) : Decimal d := ⟨⌊q * 10 ^ d + 1 / 2⌋⟩

/-- An accumulator already on the grid passes through the rounding. -/
theorem round_add (x : Decimal d) (q : ℚ) :
    round d (x + q) = x + round d q := by
  ext
  have h : ((x : ℚ) + q) * 10 ^ d + 1 / 2
      = x.units + (q * 10 ^ d + 1 / 2) := by
    rw [add_mul, toRat_mul]
    ring
  rw [round, h, Int.floor_intCast_add]
  rfl

@[simp] theorem round_zero : round d 0 = 0 := by
  ext
  norm_num [round]

@[simp] theorem round_toRat (x : Decimal d) : round d x = x := by
  have h := round_add x 0
  rwa [add_zero, round_zero, add_zero] at h

@[simp] theorem round_neg_toRat (x : Decimal d) : round d (-(x : ℚ)) = -x := by
  rw [← toRat_neg, round_toRat]

theorem round_mono {p q : ℚ} (h : p ≤ q) : round d p ≤ round d q := by
  apply Int.floor_le_floor
  have := mul_le_mul_of_nonneg_right h (show (0 : ℚ) ≤ 10 ^ d by positivity)
  exact add_le_add_left this _

theorem round_nonneg {q : ℚ} (h : 0 ≤ q) : 0 ≤ round d q := by
  rw [← round_zero (d := d)]
  exact round_mono h

theorem round_le {q : ℚ} {x : Decimal d} (h : q ≤ x) : round d q ≤ x := by
  rw [← round_toRat x]
  exact round_mono h

/-- Rounding stays within a bound exactly where the number is short of the
bound's whole units and half a unit more. -/
theorem round_toRat_le_iff {q r : ℚ} :
    ((round d q : Decimal d) : ℚ) ≤ r ↔
      q * 10 ^ d < ⌊r * 10 ^ d⌋ + 1 / 2 := by
  have hpos : (0 : ℚ) < 10 ^ d := by positivity
  rw [toRat, div_le_iff₀ hpos, ← Int.le_floor]
  change ⌊q * 10 ^ d + 1 / 2⌋ ≤ ⌊r * 10 ^ d⌋ ↔ _
  rw [← Int.lt_add_one_iff, Int.floor_lt, Int.cast_add, Int.cast_one]
  constructor
  · intro h
    linarith
  · intro h
    linarith

/-- The nearest decimal, a tie going away from zero: how a database rounds. -/
def roundAway (d : ℕ) (q : ℚ) : Decimal d :=
  if 0 ≤ q then round d q else -round d (-q)

@[simp] theorem roundAway_toRat (x : Decimal d) : roundAway d x = x := by
  unfold roundAway
  split
  · exact round_toRat x
  · rw [round_neg_toRat, neg_neg]

/-! ## Sums -/

/-! ## Printing -/

/-- The digits after the point, padded on the left to the full width. -/
def pad (w n : ℕ) : String :=
  let s := toString n
  String.ofList (List.replicate (w - s.length) '0') ++ s

theorem toList_pad (w n : ℕ) : (pad w n).toList =
    List.replicate (w - (toString n).length) '0' ++ Nat.toDigits 10 n := by
  have hdigits : (toString n).toList = Nat.toDigits 10 n := Nat.toList_repr
  rw [pad, String.toList_append, String.toList_ofList, hdigits]

theorem isDigit_pad {w n : ℕ} {c : Char} (h : c ∈ (pad w n).toList) :
    c.isDigit = true := by
  rw [toList_pad, List.mem_append] at h
  rcases h with h | h
  · rw [List.eq_of_mem_replicate h]
    decide
  · exact Nat.isDigit_of_mem_toDigits (by decide) (by decide) h

/-- Padded or not, a printed number reads back as itself. -/
theorem ofDigitChars_pad (w n : ℕ) :
    Nat.ofDigitChars 10 (pad w n).toList 0 = n := by
  rw [toList_pad, Nat.ofDigitChars_append, Nat.ofDigitChars_replicate_zero,
    Nat.mul_zero]
  exact Nat.ofDigitChars_ten_toDigits

theorem pad_injective (w : ℕ) : Function.Injective (pad w) := by
  intro m n h
  rw [← ofDigitChars_pad w m, h, ofDigitChars_pad]

/-- Every digit the grid has, trailing zeros included. -/
def toFixed (x : Decimal d) : String :=
  let n := x.units.natAbs
  (if x.units < 0 then "-" else "") ++ toString (n / 10 ^ d) ++
    (if d = 0 then "" else "." ++ pad d (n % 10 ^ d))

def toShort (x : Decimal d) : String :=
  if x.units % 10 ^ d = 0 then toString (x.units / 10 ^ d)
  else String.ofList
    (x.toFixed.toList.reverse.dropWhile fun c => c == '0').reverse

end Decimal

end Kit

import Mathlib.Data.Int.Log
import Mathlib.Tactic.NormNum
import Rch.Kit.Decimal

/-!
# Doubles

A double is a number of 53 binary digits, the last of them no smaller than
`2 ^ -1074`; an operation comes to the double nearest to its exact result. The
numbers here stay far below the range's end, so there is no infinity among
them, except for whole numbers, which have a section of their own.

A decimal is held as the double nearest to it, and rounding to a decimal scales
that double first. So a rounding may go the other way from what the decimal
would, but only near a half-way point: elsewhere a decimal still passes through
the rounding of a sum, as it does exactly.
-/

namespace Kit

/-- The nearest whole number, the even one of two as near. -/
def roundEven (q : ℚ) : ℤ :=
  if Int.fract q < 1 / 2 ∨ (Int.fract q = 1 / 2 ∧ ⌊q⌋ % 2 = 0) then ⌊q⌋
  else ⌊q⌋ + 1

theorem roundEven_near (q : ℚ) : |(roundEven q : ℚ) - q| ≤ 1 / 2 := by
  have hsplit := Int.floor_add_fract q
  have hlow := Int.fract_nonneg q
  have hhigh := Int.fract_lt_one q
  unfold roundEven
  split
  · next h =>
      have hhalf : Int.fract q ≤ 1 / 2 := by
        rcases h with h | h
        · exact h.le
        · exact h.1.le
      rw [abs_le]
      constructor <;> linarith
  · next h =>
      have hhalf : 1 / 2 ≤ Int.fract q := by
        rw [not_or] at h
        exact not_lt.1 h.1
      push_cast
      rw [abs_le]
      constructor <;> linarith

theorem roundEven_intCast (n : ℤ) : roundEven (n : ℚ) = n := by
  unfold roundEven
  rw [Int.fract_intCast, if_pos (.inl (by norm_num)), Int.floor_intCast]

/-! ## Rounding to a double -/

namespace Double

/-- The place of the last binary digit a double keeps of a number. -/
def lastPlace (q : ℚ) : ℤ := max (Int.log 2 |q| - 52) (-1074)

/-- The double nearest to a number. -/
def closest (q : ℚ) : ℚ := roundEven (q / 2 ^ lastPlace q) * 2 ^ lastPlace q

theorem closest_zero : closest 0 = 0 := by
  unfold closest
  rw [zero_div, show (0 : ℚ) = ((0 : ℤ) : ℚ) from rfl, roundEven_intCast]
  exact zero_mul _

/-- The last place is a part in `2 ^ 52` of the number, or next to nothing. -/
theorem unit_le {q : ℚ} (hq : q ≠ 0) :
    (2 : ℚ) ^ lastPlace q ≤ |q| / 2 ^ 52 + 1 / 2 ^ 69 := by
  rcases max_choice (Int.log 2 |q| - 52) (-1074) with h | h
  · have hlog : (2 : ℚ) ^ Int.log 2 |q| ≤ |q| := by
      exact_mod_cast Int.zpow_log_le_self (b := 2) (by norm_num) (abs_pos.2 hq)
    have hunit : (2 : ℚ) ^ lastPlace q = 2 ^ Int.log 2 |q| / 2 ^ 52 := by
      rw [lastPlace, h, zpow_sub₀ (by norm_num)]
      norm_cast
    have hpart := div_le_div_of_nonneg_right hlog
      (show (0 : ℚ) ≤ 2 ^ 52 by positivity)
    rw [hunit]
    exact hpart.trans (le_add_of_nonneg_right (by positivity))
  · have hsmall : (2 : ℚ) ^ (-1074 : ℤ) ≤ 2 ^ (-69 : ℤ) :=
      zpow_le_zpow_right₀ (by norm_num) (by norm_num)
    have htiny : (2 : ℚ) ^ (-69 : ℤ) = 1 / 2 ^ 69 := by norm_num
    rw [lastPlace, h]
    exact (hsmall.trans_eq htiny).trans (le_add_of_nonneg_left (by positivity))

/-- A double is off by a part in `2 ^ 53` at most, or next to nothing. -/
theorem closest_near (q : ℚ) : |closest q - q| ≤ |q| / 2 ^ 53 + 1 / 2 ^ 70 := by
  rcases eq_or_ne q 0 with rfl | hq
  · rw [closest_zero]
    norm_num
  have hpos : (0 : ℚ) < 2 ^ lastPlace q := zpow_pos (by norm_num) _
  have hround := roundEven_near (q / 2 ^ lastPlace q)
  have hoff : closest q - q =
      (roundEven (q / 2 ^ lastPlace q) - q / 2 ^ lastPlace q) *
        2 ^ lastPlace q := by
    unfold closest
    rw [sub_mul, div_mul_cancel₀ _ hpos.ne']
  calc |closest q - q|
      = |(roundEven (q / 2 ^ lastPlace q) : ℚ) - q / 2 ^ lastPlace q| *
          2 ^ lastPlace q := by rw [hoff, abs_mul, abs_of_pos hpos]
    _ ≤ 1 / 2 * 2 ^ lastPlace q := mul_le_mul_of_nonneg_right hround hpos.le
    _ ≤ 1 / 2 * (|q| / 2 ^ 52 + 1 / 2 ^ 69) :=
        mul_le_mul_of_nonneg_left (unit_le hq) (by norm_num)
    _ = |q| / 2 ^ 53 + 1 / 2 ^ 70 := by ring

theorem closest_of_digits {n e : ℤ} (hn : |n| < 2 ^ 53) (he : -1074 ≤ e) :
    closest ((n : ℚ) * 2 ^ e) = n * 2 ^ e := by
  rcases eq_or_ne n 0 with rfl | hne
  · rw [Int.cast_zero, zero_mul]
    exact closest_zero
  have hunit : (0 : ℚ) < 2 ^ e := zpow_pos (by norm_num) _
  have habs : |(n : ℚ) * 2 ^ e| = |(n : ℚ)| * 2 ^ e := by
    rw [abs_mul, abs_of_pos hunit]
  -- The last place divides the digit the number ends in.
  have hplace : lastPlace ((n : ℚ) * 2 ^ e) ≤ e := by
    refine max_le ?_ he
    have hlt : |(n : ℚ) * 2 ^ e| < 2 ^ (e + 53) := by
      rw [habs, zpow_add₀ (by norm_num), mul_comm]
      refine mul_lt_mul_of_pos_left ?_ hunit
      exact_mod_cast hn
    have hpos : 0 < |(n : ℚ) * 2 ^ e| := by
      rw [habs]
      exact mul_pos (abs_pos.2 (Int.cast_ne_zero.2 hne)) hunit
    have hlog : Int.log 2 |(n : ℚ) * 2 ^ e| < e + 53 := by
      refine (Int.lt_zpow_iff_log_lt (b := 2) (by norm_num) hpos).1 ?_
      exact_mod_cast hlt
    omega
  obtain ⟨k, hk⟩ := Int.le.dest hplace
  have hpos : (2 : ℚ) ^ lastPlace ((n : ℚ) * 2 ^ e) ≠ 0 :=
    (zpow_pos (by norm_num) _).ne'
  have hpow : (2 : ℚ) ^ e = 2 ^ lastPlace ((n : ℚ) * 2 ^ e) * 2 ^ k := by
    rw [← zpow_natCast, ← zpow_add₀ (by norm_num), hk]
  have hwhole : (n : ℚ) * 2 ^ e / 2 ^ lastPlace ((n : ℚ) * 2 ^ e) =
      ((n * 2 ^ k : ℤ) : ℚ) := by
    rw [div_eq_iff hpos]
    push_cast
    rw [mul_assoc, mul_comm ((2 : ℚ) ^ k), ← hpow]
  rw [closest, hwhole, roundEven_intCast, ← hwhole, div_mul_cancel₀ _ hpos]

/-- No more digits than a double has. -/
theorem roundEven_digits (q : ℚ) : |roundEven (q / 2 ^ lastPlace q)| ≤ 2 ^ 53 := by
  rcases eq_or_ne q 0 with rfl | hq
  · rw [zero_div, show (0 : ℚ) = ((0 : ℤ) : ℚ) from rfl, roundEven_intCast]
    norm_num
  have hpos : (0 : ℚ) < 2 ^ lastPlace q := zpow_pos (by norm_num) _
  have hlt : |q / 2 ^ lastPlace q| < 2 ^ 53 := by
    have hlog : |q| < 2 ^ (Int.log 2 |q| + 1) := by
      exact_mod_cast Int.lt_zpow_succ_log_self (b := 2) (by norm_num) |q|
    have hplace : Int.log 2 |q| + 1 ≤ 53 + lastPlace q := by
      have := le_max_left (Int.log 2 |q| - 52) (-1074)
      unfold lastPlace
      omega
    rw [abs_div, abs_of_pos hpos, div_lt_iff₀ hpos]
    calc |q| < 2 ^ (Int.log 2 |q| + 1) := hlog
      _ ≤ 2 ^ (53 + lastPlace q) := zpow_le_zpow_right₀ (by norm_num) hplace
      _ = 2 ^ 53 * 2 ^ lastPlace q := by
          rw [zpow_add₀ (by norm_num)]
          norm_cast
  have hround := roundEven_near (q / 2 ^ lastPlace q)
  have hbound : |(roundEven (q / 2 ^ lastPlace q) : ℚ)| < 2 ^ 53 + 1 := by
    have := abs_sub_abs_le_abs_sub (roundEven (q / 2 ^ lastPlace q) : ℚ)
      (q / 2 ^ lastPlace q)
    linarith
  exact Int.lt_add_one_iff.1 (by exact_mod_cast hbound)

theorem closest_closest (q : ℚ) : closest (closest q) = closest q := by
  have hplace : -1074 ≤ lastPlace q := le_max_right _ _
  rcases lt_or_eq_of_le (roundEven_digits q) with hlt | htop
  · exact closest_of_digits hlt hplace
  · -- All the digits carried: half as many of the next place.
    have hcarry (m : ℤ) (hm : |m| < 2 ^ 53)
        (h : (roundEven (q / 2 ^ lastPlace q) : ℚ) = m * 2) :
        closest (closest q) = closest q := by
      have hnext : closest q = m * 2 ^ (lastPlace q + 1) := by
        rw [closest, h, zpow_add_one₀ (by norm_num)]
        ring
      rw [hnext]
      exact closest_of_digits hm (by omega)
    rcases abs_eq (by norm_num) |>.1 htop with h | h
    · exact hcarry (2 ^ 52) (by norm_num) (by rw [h]; norm_num)
    · exact hcarry (-2 ^ 52) (by norm_num) (by rw [h]; norm_num)

end Double

/-- A number a double can be. -/
structure Double where
  val : ℚ
  fits : Double.closest val = val

namespace Double

def ofRat (q : ℚ) : Double := ⟨closest q, closest_closest q⟩

instance : Zero Double := ⟨ofRat 0⟩
instance : Add Double := ⟨fun x y => ofRat (x.val + y.val)⟩
instance : LT Double := ⟨fun x y => x.val < y.val⟩

instance (x y : Double) : Decidable (x < y) :=
  inferInstanceAs (Decidable (x.val < y.val))

theorem ofRat_val (x : Double) : ofRat x.val = x := by
  obtain ⟨q, hq⟩ := x
  simp only [ofRat, hq]

theorem zero_plus (x : Double) : 0 + x = x := by
  have hval : (0 : Double).val + x.val = x.val := by
    change closest 0 + x.val = x.val
    rw [closest_zero, zero_add]
  change ofRat ((0 : Double).val + x.val) = x
  rw [hval, ofRat_val]

theorem ofRat_near (q : ℚ) : |(ofRat q).val - q| ≤ |q| / 2 ^ 53 + 1 / 2 ^ 70 :=
  closest_near q

/-- Numbers far enough apart are not one double. -/
theorem ofRat_lt {p q : ℚ}
    (h : p + (|p| + |q|) / 2 ^ 53 + 1 / 2 ^ 69 < q) : ofRat p < ofRat q := by
  have hp := abs_le.1 (closest_near p)
  have hq := abs_le.1 (closest_near q)
  change closest p < closest q
  linarith [hp.2, hq.1]

end Double

/-! ## Decimals as doubles -/

/-- How far a number is from the half-way points between whole numbers. -/
def offHalf (t : ℚ) : ℚ := |Int.fract t - 1 / 2|

theorem le_offHalf (n : ℤ) (t : ℚ) : 1 / 2 - |t - n| ≤ offHalf t := by
  have hsplit := Int.floor_add_fract t
  unfold offHalf
  rcases le_or_gt n ⌊t⌋ with hn | hn
  · have hn' : (n : ℚ) ≤ ⌊t⌋ := by exact_mod_cast hn
    have := le_abs_self (t - n)
    have := neg_le_abs (Int.fract t - 1 / 2)
    linarith
  · have hn' : (⌊t⌋ : ℚ) + 1 ≤ n := by exact_mod_cast hn
    have := neg_le_abs (t - n)
    have := le_abs_self (Int.fract t - 1 / 2)
    linarith

/-- A nudge rounds a number elsewhere only over a half-way point. -/
theorem floor_half_add {t e : ℚ} (h : |e| < offHalf t) :
    ⌊t + e + 1 / 2⌋ = ⌊t + 1 / 2⌋ := by
  have hsplit := Int.floor_add_fract t
  have hlow := Int.fract_nonneg t
  have hhigh := Int.fract_lt_one t
  have he := abs_lt.1 h
  unfold offHalf at he
  rcases lt_or_ge (Int.fract t) (1 / 2) with hhalf | hhalf
  · rw [abs_of_neg (by linarith)] at he
    have hfloor (x : ℚ) (hx : (⌊t⌋ : ℚ) ≤ x) (hx' : x < ⌊t⌋ + 1) : ⌊x⌋ = ⌊t⌋ :=
      Int.floor_eq_iff.2 ⟨hx, hx'⟩
    rw [hfloor (t + e + 1 / 2) (by linarith) (by linarith),
      hfloor (t + 1 / 2) (by linarith) (by linarith)]
  · rw [abs_of_nonneg (by linarith)] at he
    have hfloor (x : ℚ) (hx : (⌊t⌋ : ℚ) + 1 ≤ x) (hx' : x < ⌊t⌋ + 1 + 1) :
        ⌊x⌋ = ⌊t⌋ + 1 := by
      refine Int.floor_eq_iff.2 ⟨?_, ?_⟩
      · push_cast
        exact hx
      · push_cast
        exact hx'
    rw [hfloor (t + e + 1 / 2) (by linarith) (by linarith),
      hfloor (t + 1 / 2) (by linarith) (by linarith)]

/-- What two numbers round to, where one is near the other. -/
theorem floor_half_of_near {s t : ℚ} (h : |s - t| < offHalf t) :
    ⌊s + 1 / 2⌋ = ⌊t + 1 / 2⌋ := by
  have := floor_half_add h
  rwa [add_sub_cancel] at this

namespace Decimal

variable {d : ℕ}

def held (x : Decimal d) : Double := .ofRat x

/-- `Math.round(v * 10 ** d) / 10 ** d`: the product is a double already when
it is rounded. -/
def ofDouble (d : ℕ) (v : Double) : Decimal d :=
  ⟨⌊(Double.ofRat (v.val * 10 ^ d)).val + 1 / 2⌋⟩

theorem held_zero : (0 : Decimal d).held = 0 := by
  unfold held
  rw [toRat_zero]
  rfl

theorem ofDouble_eq_round {v : Double}
    (h : (|v.val * 10 ^ d| + 1) / 2 ^ 50 < offHalf (v.val * 10 ^ d)) :
    ofDouble d v = round d v.val := by
  have hnear := Double.ofRat_near (v.val * 10 ^ d)
  have hpos := abs_nonneg (v.val * 10 ^ d)
  refine Decimal.ext (floor_half_of_near (lt_of_le_of_lt ?_ h))
  linarith

theorem thousand_le (hd : d ≤ 3) : (10 : ℚ) ^ d ≤ 1000 := by
  calc (10 : ℚ) ^ d ≤ 10 ^ 3 := pow_le_pow_right₀ (by norm_num) hd
    _ = 1000 := by norm_num

/-- In the decimal's units: what a double is off by is scaled with it. -/
theorem scaled_near (hd : d ≤ 3) (q : ℚ) :
    |(Double.ofRat q).val * 10 ^ d - q * 10 ^ d| ≤
      |q * 10 ^ d| / 2 ^ 53 + 1 / 2 ^ 60 := by
  have hD : (0 : ℚ) < 10 ^ d := by positivity
  have hD' := thousand_le hd
  have hnear := mul_le_mul_of_nonneg_right (Double.ofRat_near q) hD.le
  rw [← abs_of_pos hD, ← abs_mul, abs_of_pos hD, sub_mul] at hnear
  rw [abs_mul, abs_of_pos hD]
  linarith

theorem scaled_held_near (hd : d ≤ 3) (x : Decimal d) :
    |x.held.val * 10 ^ d - x.units| ≤ |(x.units : ℚ)| / 2 ^ 53 + 1 / 2 ^ 60 := by
  have hnear := scaled_near hd (x : ℚ)
  rwa [toRat_mul] at hnear

/-- What a decimal and a double come to, added and scaled as doubles are. -/
theorem held_add_near (hd : d ≤ 3) (x : Decimal d) (v : Double) :
    |(Double.ofRat ((x.held + v).val * 10 ^ d)).val -
        (x.units + v.val * 10 ^ d)| ≤
      (|(x.units : ℚ)| + |v.val * 10 ^ d| + 1) / 2 ^ 50 := by
  have hheld := scaled_held_near hd x
  have hsum := scaled_near hd (x.held.val + v.val)
  have hprod := Double.ofRat_near ((x.held + v).val * 10 ^ d)
  change |(x.held + v).val * 10 ^ d - _| ≤ _ at hsum
  rw [add_mul] at hsum
  generalize x.held.val * 10 ^ d = h at hheld hsum
  generalize (x.held + v).val * 10 ^ d = s at hsum hprod ⊢
  generalize v.val * 10 ^ d = t at hsum ⊢
  have ht : |h + t| ≤ |(x.units : ℚ)| + |t| + |h - x.units| := by
    calc |h + t| = |(x.units : ℚ) + t + (h - x.units)| := by ring_nf
      _ ≤ _ := abs_add_three _ _ _
  have hs : |s| ≤ |h + t| + |s - (h + t)| := by
    calc |s| = |h + t + (s - (h + t))| := by ring_nf
      _ ≤ _ := abs_add_le _ _
  calc |(Double.ofRat s).val - (x.units + t)|
      = |((Double.ofRat s).val - s) + (s - (h + t)) + (h - x.units)| := by ring_nf
    _ ≤ |(Double.ofRat s).val - s| + |s - (h + t)| + |h - x.units| :=
        abs_add_three _ _ _
    _ ≤ (|(x.units : ℚ)| + |t| + 1) / 2 ^ 50 := by
        have := abs_nonneg (x.units : ℚ)
        have := abs_nonneg t
        linarith

/-- A double rounds on top of a decimal as it does by itself: the decimal is
zero, or the double is off every half-way point by more than the sum may be
off. -/
def RoundsAlone (x : Decimal d) (v : Double) : Prop :=
  x = 0 ∨ (|(x.units : ℚ)| + |v.val * 10 ^ d| + 1) / 2 ^ 50 <
    offHalf (v.val * 10 ^ d)

instance (x : Decimal d) (v : Double) : Decidable (RoundsAlone x v) :=
  inferInstanceAs (Decidable (_ ∨ _))

/-- There a decimal passes through the rounding of a sum, as it does when the
sum is exact. -/
theorem ofDouble_held_add (hd : d ≤ 3) {x : Decimal d} {v : Double}
    (h : RoundsAlone x v) : ofDouble d (x.held + v) = x + ofDouble d v := by
  rcases h with rfl | h
  · rw [held_zero, Double.zero_plus, zero_add]
  have hx := abs_nonneg (x.units : ℚ)
  have hround : ofDouble d v = round d v.val :=
    ofDouble_eq_round (lt_of_le_of_lt (by linarith) h)
  have hnear := held_add_near hd x v
  rw [hround]
  refine Decimal.ext ?_
  calc ⌊(Double.ofRat ((x.held + v).val * 10 ^ d)).val + 1 / 2⌋
      = ⌊((x.units : ℚ) + v.val * 10 ^ d) + 1 / 2⌋ := by
        refine floor_half_of_near (lt_of_le_of_lt hnear ?_)
        unfold offHalf at h ⊢
        rwa [Int.fract_intCast_add]
    _ = x.units + ⌊v.val * 10 ^ d + 1 / 2⌋ := by
        rw [add_assoc, Int.floor_intCast_add]

/-- So does what is a decimal itself, in the digits a double keeps. -/
theorem roundsAlone_held (hd : d ≤ 3) {x y : Decimal d}
    (h : |x.units| + |y.units| < 2 ^ 48) : RoundsAlone x y.held := by
  have hnear := scaled_held_near hd y
  have hbound : |(x.units : ℚ)| + |(y.units : ℚ)| < 2 ^ 48 := by exact_mod_cast h
  have hx := abs_nonneg (x.units : ℚ)
  have hoff := le_offHalf y.units (y.held.val * 10 ^ d)
  refine .inr ?_
  generalize y.held.val * 10 ^ d = t at hnear hoff ⊢
  have ht := abs_sub_abs_le_abs_sub t y.units
  linarith

theorem ofDouble_held (hd : d ≤ 3) {x : Decimal d} (h : |x.units| < 2 ^ 48) :
    ofDouble d x.held = x := by
  have hnear := scaled_held_near hd x
  have hprod := Double.ofRat_near (x.held.val * 10 ^ d)
  have hx : |(x.units : ℚ)| < 2 ^ 48 := by exact_mod_cast h
  have hoff := le_offHalf x.units (x.units : ℚ)
  rw [sub_self, abs_zero, sub_zero] at hoff
  have hfloor : ⌊(x.units : ℚ) + 1 / 2⌋ = x.units := by
    rw [Int.floor_intCast_add]
    norm_num
  refine Decimal.ext ((floor_half_of_near ?_).trans hfloor)
  generalize x.held.val * 10 ^ d = t at hnear hprod ⊢
  have ht := abs_sub_abs_le_abs_sub t x.units
  have := abs_sub_le (Double.ofRat t).val t x.units
  linarith

/-- Decimals far enough apart are two doubles, in the same order. -/
theorem held_lt (hd : d ≤ 3) {x y : Decimal d}
    (h : (x.units : ℚ) + (|(x.units : ℚ)| + |(y.units : ℚ)|) / 2 ^ 53 + 1 / 2 ^ 59 <
      y.units) : x.held < y.held := by
  have hD : (0 : ℚ) < 10 ^ d := by positivity
  have hD' := thousand_le hd
  refine Double.ofRat_lt (lt_of_mul_lt_mul_right ?_ hD.le)
  have hunits (z : Decimal d) : |(z : ℚ)| * 10 ^ d = |(z.units : ℚ)| := by
    rw [← toRat_mul, abs_mul, abs_of_pos hD]
  have hleft : ((x : ℚ) + (|(x : ℚ)| + |(y : ℚ)|) / 2 ^ 53 + 1 / 2 ^ 69) * 10 ^ d =
      x.units + (|(x.units : ℚ)| + |(y.units : ℚ)|) / 2 ^ 53 + 10 ^ d / 2 ^ 69 := by
    rw [← hunits x, ← hunits y, ← toRat_mul x]
    ring
  rw [hleft, toRat_mul]
  linarith

/-- So are any two of no more than fifty binary digits. -/
theorem held_lt_held (hd : d ≤ 3) {x y : Decimal d}
    (hx : |x.units| < 2 ^ 50) (h : x < y) : x.held < y.held := by
  have hstep : (x.units : ℚ) + 1 ≤ y.units := by exact_mod_cast h
  have hxu : |(x.units : ℚ)| < 2 ^ 50 := by exact_mod_cast hx
  have hyu := abs_sub_abs_le_abs_sub (y.units : ℚ) x.units
  rw [abs_of_pos (show (0 : ℚ) < y.units - x.units by linarith)] at hyu
  refine held_lt hd ?_
  linarith

/-- There is always one held lower, and below what is more than nothing zero
is. -/
theorem exists_held_lt (hd : d ≤ 3) (x : Decimal d) :
    ∃ y : Decimal d, y.held < x.held := by
  rcases lt_or_ge 0 x with hpos | hneg
  · exact ⟨0, held_lt_held hd (by norm_num) hpos⟩
  · refine ⟨⟨2 * x.units - 1⟩, held_lt hd ?_⟩
    have hx : (x.units : ℚ) ≤ 0 := by exact_mod_cast hneg
    push_cast
    rw [abs_of_nonpos hx, abs_of_neg (by linarith)]
    linarith

end Decimal

/-! ## Whole numbers

A double has 53 binary digits. A whole number of more digits is kept as the
nearest one that fits, the even one of two as near, and past the range as
infinity. Below `2 ^ 53` nothing is lost: a number comes back as itself,
and prints as itself.

A double prints in the fewest decimal digits that read back as it, with zeros
to fill, and from `10 ^ 21` on with an exponent. -/

/-- The whole number with 53 binary digits nearest to this one. -/
def nearest (n : ℕ) : ℕ :=
  let u := 2 ^ (n.log2 - 52)
  let q := n / u
  let r := n % u
  if r * 2 < u ∨ (r * 2 = u ∧ q % 2 = 0) then q * u else (q + 1) * u

theorem nearest_of_lt {n : ℕ} (h : n < 2 ^ 53) : nearest n = n := by
  have hlog : n.log2 - 52 = 0 := by
    by_cases hn : n = 0
    · subst hn
      decide
    · have := (Nat.log2_lt hn).2 h
      omega
  simp only [nearest, hlog, Nat.pow_zero, Nat.div_one, Nat.mod_one]
  rw [if_pos (.inl (by decide)), Nat.mul_one]

/-- What is rounded to a number below `2 ^ 53` was that number. -/
theorem lt_of_nearest_lt {n : ℕ} (h : nearest n < 2 ^ 53) : n < 2 ^ 53 := by
  by_contra hn
  have hn : 2 ^ 53 ≤ n := Nat.not_lt.1 hn
  have hne : n ≠ 0 := by omega
  have hlog : 53 ≤ n.log2 := (Nat.le_log2 hne).2 hn
  have hfloor : 2 ^ 52 * 2 ^ (n.log2 - 52) ≤ n := by
    rw [← Nat.pow_add, show 52 + (n.log2 - 52) = n.log2 from by omega]
    exact Nat.log2_self_le hne
  have hq : 2 ^ 52 ≤ n / 2 ^ (n.log2 - 52) :=
    (Nat.le_div_iff_mul_le (by positivity)).2 hfloor
  have hu : 2 ≤ 2 ^ (n.log2 - 52) :=
    calc 2 = 2 ^ 1 := rfl
      _ ≤ _ := Nat.pow_le_pow_right (by decide) (by omega)
  have hlow : 2 ^ 53 ≤ n / 2 ^ (n.log2 - 52) * 2 ^ (n.log2 - 52) :=
    Nat.mul_le_mul hq hu
  unfold nearest at h
  dsimp only at h
  split at h
  · omega
  · rw [Nat.add_mul] at h
    omega

theorem eq_of_nearest_eq {m n : ℕ} (h : nearest m = n) (hn : n < 2 ^ 53) :
    m = n := by
  rw [← h, nearest_of_lt (lt_of_nearest_lt (h ▸ hn))]

/-- A whole number as a double holds it. -/
inductive Whole
  | finite (n : ℕ)
  | infinity
deriving DecidableEq, Repr

namespace Whole

def maxExponent : ℕ := 1024

/-- Where the doubles end. -/
def top : ℕ := 2 ^ maxExponent

theorem lt_top : 2 ^ 53 < top := by
  rw [top]
  exact Nat.pow_lt_pow_right Nat.one_lt_two (by decide)

def ofNat (n : ℕ) : Whole :=
  if nearest n < top then .finite (nearest n) else .infinity

def add : Whole → ℕ → Whole
  | .finite m, n => ofNat (m + n)
  | .infinity, _ => .infinity

def max : Whole → Whole → Whole
  | .finite m, .finite n => .finite (Nat.max m n)
  | _, _ => .infinity

def ofDigits (ds : List Char) : Whole := ofNat (Nat.ofDigitChars 10 ds 0)

theorem ofNat_of_le {n : ℕ} (h : n ≤ 2 ^ 53) : ofNat n = .finite n := by
  have hround : nearest n = n := by
    rcases Nat.lt_or_eq_of_le h with h | rfl
    · exact nearest_of_lt h
    · decide +kernel
  have hrange : n < top := Nat.lt_of_le_of_lt h lt_top
  rw [ofNat, hround, if_pos hrange]

theorem eq_of_ofNat {m n : ℕ} (h : ofNat m = .finite n) (hn : n < 2 ^ 53) :
    m = n := by
  unfold ofNat at h
  split at h
  · exact eq_of_nearest_eq (finite.inj h) hn
  · cases h

/-! ## Printing -/

/-- The fewest digits that read back as `n`, and how many zeros follow them,
looking from so many zeros down. -/
def shortest (n : ℕ) : ℕ → ℕ × ℕ
  | 0 => (n, 0)
  | z + 1 =>
    let p := 10 ^ (z + 1)
    let low := n / p
    let reads := fun s => decide (ofNat (s * p) = .finite n)
    let below := n - low * p
    let above := (low + 1) * p - n
    if reads low = true ∧
        (reads (low + 1) = false ∨ below < above ∨
          (below = above ∧ low % 2 = 0)) then
      (low, z + 1)
    else if reads (low + 1) = true then (low + 1, z + 1)
    else shortest n z

/-- Those digits are the number, where every number has a double. -/
theorem shortest_exact {n : ℕ} (h : n < 2 ^ 53) (z : ℕ) :
    (shortest n z).1 * 10 ^ (shortest n z).2 = n := by
  induction z with
  | zero => simp [shortest]
  | succ z ih =>
      rw [shortest]
      dsimp only
      split
      · next hlow => exact eq_of_ofNat (of_decide_eq_true hlow.1) h
      · split
        · next hhigh => exact eq_of_ofNat (of_decide_eq_true hhigh) h
        · exact ih

def shown (n : ℕ) : ℕ :=
  let d := shortest n (Nat.toDigits 10 n).length
  d.1 * 10 ^ d.2

theorem shown_of_le {n : ℕ} (h : n ≤ 2 ^ 53) : shown n = n := by
  rcases Nat.lt_or_eq_of_le h with h | rfl
  · exact shortest_exact h _
  · decide +kernel

def text : Whole → String
  | .infinity => "Infinity"
  | .finite n =>
    if shown n < 10 ^ 21 then toString (shown n)
    else
      let d := shortest n (Nat.toDigits 10 n).length
      let ds := Nat.toDigits 10 d.1
      String.ofList (ds.take 1) ++
        (if ds.length = 1 then "" else "." ++ String.ofList (ds.drop 1)) ++
        "e+" ++ toString (ds.length - 1 + d.2)

theorem text_of_le {n : ℕ} (h : n ≤ 2 ^ 53) :
    (Whole.finite n).text = toString n := by
  rw [text, shown_of_le h, if_pos]
  calc n ≤ 2 ^ 53 := h
    _ < 10 ^ 21 := by decide

end Whole

def padStart (w : ℕ) (s : String) : String :=
  String.ofList (List.replicate (w - s.length) '0') ++ s

theorem padStart_toString (w n : ℕ) :
    padStart w (toString n) = Decimal.pad w n := rfl

end Kit

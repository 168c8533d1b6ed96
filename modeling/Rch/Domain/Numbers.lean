import Rch.Kit.Double

/-!
# Quantities and money

A quantity column keeps three decimals and a money column two, so those are
the two grids. Numbers still in flight (a request body, a sum the code has not
rounded yet) are exact rationals; `round3` and `round2` put them on a grid.

The code rounds doubles. `Doubles.round3` and `Doubles.round2` round what it
rounds; they differ from the exact ones only next to half a thousandth or half
a paisa, and stand where that decides something.

The printing functions are the ones a refusal quotes a figure with.
-/

namespace Rch

open Kit

abbrev Qty := Decimal 3

abbrev Money := Decimal 2

/-- The tolerance every quantity in the system is kept at. -/
def round3 (v : ℚ) : Qty := Decimal.round 3 v

/-- Rounding to the paisa; the source declares it per file, as `round2` or
`money`. -/
def round2 (v : ℚ) : Money := Decimal.round 2 v

namespace Doubles

/-- `Math.round(v * 1000) / 1000`. -/
def round3 (v : Double) : Qty := Decimal.ofDouble 3 v

/-- `Math.round(v * 100) / 100`. -/
def round2 (v : Double) : Money := Decimal.ofDouble 2 v

end Doubles

def paise (rupees : Money) : ℤ := rupees.units

/-- A quantity as a screen shows it: three decimals, except a whole count of
countable units. -/
def fq (v : Qty) (unit : String) : String :=
  if unit = "nos" ∧ v.units % 1000 = 0 then toString (v.units / 1000)
  else v.toFixed

/-- Digits grouped the Indian way: three, then twos, least significant
first. -/
def groupIn : List Char → List Char
  | a :: b :: c :: d :: rest => a :: b :: c :: ',' :: go (d :: rest)
  | short => short
where
  go : List Char → List Char
    | a :: b :: c :: rest => a :: b :: ',' :: go (c :: rest)
    | short => short

def inr (v : Money) : String :=
  let n := v.units.natAbs
  let whole := String.ofList (groupIn (toString (n / 100)).toList.reverse).reverse
  "₹" ++ (if v.units < 0 then "-" else "") ++ whole ++ "."
    ++ Decimal.pad 2 (n % 100)

/-- Rupees to the nearest whole one. -/
def inr0 (v : Money) : String :=
  let n := (Decimal.round 0 (v : ℚ)).units
  "₹" ++ (if n < 0 then "-" else "")
    ++ String.ofList (groupIn (toString n.natAbs).toList.reverse).reverse

/-! ## Rounding what is already on the grid -/

@[simp] theorem round3_qty (x : Qty) : round3 x = x := Decimal.round_toRat x

@[simp] theorem round3_zero : round3 0 = 0 := Decimal.round_zero

@[simp] theorem round3_neg_qty (x : Qty) : round3 (-(x : ℚ)) = -x :=
  Decimal.round_neg_toRat x

theorem round3_add (x : Qty) (q : ℚ) : round3 (x + q) = x + round3 q :=
  Decimal.round_add x q

theorem round3_sub (x y : Qty) : round3 ((x : ℚ) - y) = x - y := by
  rw [← Decimal.toRat_sub, round3_qty]

@[simp] theorem round2_money (x : Money) : round2 x = x :=
  Decimal.round_toRat x

theorem round2_add (x : Money) (q : ℚ) : round2 (x + q) = x + round2 q :=
  Decimal.round_add x q

theorem round2_sub (x y : Money) : round2 ((x : ℚ) - y) = x - y := by
  rw [← Decimal.toRat_sub, round2_money]

/-- A figure on the grid that covers an amount also covers it rounded: the
check may compare against either. -/
theorem round3_le_of_le {q : ℚ} {x : Qty} (h : q ≤ x) : round3 q ≤ x :=
  Decimal.round_le h

example : fq ⟨9000⟩ "nos" = "9" := by decide
example : inr ⟨123456789⟩ = "₹12,34,567.89" := by decide

end Rch

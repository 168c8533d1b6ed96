import Mathlib.Data.Int.Log
import Mathlib.Data.List.TakeWhile
import Mathlib.Data.Rat.Floor
import Rch.Domain.Party
import Rch.Kit.Double

/-!
# A text read as a number

What `Number` makes of a text, where that is a finite number. The blanks at
its two ends are taken off and an empty text is zero. A number is written in
decimal, with a point, a sign and an exponent where it has them, or in base 16,
8 or 2 behind its two letters. It is the double nearest to what is written.
-/

namespace Rch

/-- The double nearest to a number that is not negative, the even one of two
as near, and none past the range. -/
def nearestDouble (q : ℚ) : Option ℚ :=
  if q = 0 then some 0
  else
    let u : ℚ := 2 ^ max (Int.log 2 q - 52) (-1074)
    let n := ⌊q / u⌋
    let f := q / u - n
    let k := if f < 1 / 2 ∨ (f = 1 / 2 ∧ n % 2 = 0) then n else n + 1
    if k * u < 2 ^ Kit.Whole.maxExponent then some (k * u) else none

/-- The exponent a decimal ends in, zero where there is none. -/
def exponentOf : List Char → Option ℤ
  | [] => some 0
  | e :: cs =>
    let (negative, ds) : Bool × List Char := match cs with
      | '+' :: ds => (false, ds)
      | '-' :: ds => (true, ds)
      | ds => (false, ds)
    if (e = 'e' ∨ e = 'E') ∧ ds ≠ [] ∧ ds.all Char.isDigit = true then
      let n : ℤ := Nat.ofDigitChars 10 ds 0
      some (if negative then -n else n)
    else none

/-- A decimal without a sign. -/
def decimalOf (cs : List Char) : Option ℚ :=
  let whole := cs.takeWhile Char.isDigit
  let rest := cs.dropWhile Char.isDigit
  let (fraction, rest) : List Char × List Char := match rest with
    | '.' :: ds => (ds.takeWhile Char.isDigit, ds.dropWhile Char.isDigit)
    | _ => ([], rest)
  if whole = [] ∧ fraction = [] then none
  else (exponentOf rest).bind fun e =>
    nearestDouble (Nat.ofDigitChars 10 (whole ++ fraction) 0 *
      (10 : ℚ) ^ (e - fraction.length))

/-- A digit up to `f`, in either case. -/
def hexDigit (c : Char) : Option ℕ :=
  if c.isDigit then some (c.toNat - 48)
  else if 'a' ≤ c ∧ c ≤ 'f' then some (c.toNat - 87)
  else if 'A' ≤ c ∧ c ≤ 'F' then some (c.toNat - 55)
  else none

/-- A whole number in another base, all of whose digits are below it. -/
def radixOf (base : ℕ) (ds : List Char) : Option ℚ :=
  (ds.mapM fun c => (hexDigit c).filter fun d => decide (d < base)).bind
    fun values =>
      if values = [] then none
      else nearestDouble (values.foldl (fun n d => n * base + d) 0 : ℕ)

/-- `Number`, where it is finite. -/
def number (s : String) : Option ℚ :=
  match (trim s).toList with
  | [] => some 0
  | '0' :: 'x' :: ds | '0' :: 'X' :: ds => radixOf 16 ds
  | '0' :: 'o' :: ds | '0' :: 'O' :: ds => radixOf 8 ds
  | '0' :: 'b' :: ds | '0' :: 'B' :: ds => radixOf 2 ds
  | '+' :: cs => decimalOf cs
  | '-' :: cs => (decimalOf cs).map fun q => -q
  | cs => decimalOf cs

/-! ## Whole numbers -/

/-- A whole number below `2 ^ 53` is a double. -/
theorem nearestDouble_natCast {n : ℕ} (h : n < 2 ^ 53) :
    nearestDouble (n : ℚ) = some (n : ℚ) := by
  by_cases hn : n = 0
  · subst hn
    rfl
  have hq : (n : ℚ) ≠ 0 := Nat.cast_ne_zero.2 hn
  have hlog : Nat.log 2 n < 53 := Nat.log_lt_of_lt_pow hn h
  -- The unit divides one, so nothing is left over.
  obtain ⟨e, he⟩ : ∃ e : ℕ,
      max (Int.log 2 (n : ℚ) - 52) (-1074) = -(e : ℤ) := by
    refine ⟨(-max (Int.log 2 (n : ℚ) - 52) (-1074)).toNat, ?_⟩
    rw [Int.log_natCast]
    omega
  have hunits : (n : ℚ) / 2 ^ (-(e : ℤ)) = ((n * 2 ^ e : ℕ) : ℚ) := by
    rw [zpow_neg, zpow_natCast, div_inv_eq_mul]
    push_cast
    rfl
  have hback : ((n * 2 ^ e : ℕ) : ℚ) * 2 ^ (-(e : ℤ)) = n := by
    rw [← hunits, div_mul_cancel₀]
    exact zpow_ne_zero _ (by norm_num)
  have hrange : (n : ℚ) < 2 ^ Kit.Whole.maxExponent := by
    have := Nat.lt_trans h Kit.Whole.lt_top
    unfold Kit.Whole.top at this
    exact_mod_cast this
  rw [nearestDouble, if_neg hq]
  dsimp only
  rw [he, hunits, Int.floor_natCast, Int.cast_natCast, sub_self,
    if_pos (Or.inl (by norm_num)), Int.cast_natCast, hback, if_pos hrange]

theorem dropWhile_digits {ds : List Char} (h : ∀ c ∈ ds, c.isDigit = true) :
    ds.takeWhile Char.isDigit = ds ∧ ds.dropWhile Char.isDigit = [] :=
  ⟨List.takeWhile_eq_self_iff.2 h, List.dropWhile_eq_nil_iff.2 h⟩

theorem decimalOf_digits {ds : List Char} (h : ∀ c ∈ ds, c.isDigit = true)
    (hne : ds ≠ []) (hlow : Nat.ofDigitChars 10 ds 0 < 2 ^ 53) :
    decimalOf ds = some (Nat.ofDigitChars 10 ds 0 : ℚ) := by
  obtain ⟨htake, hdrop⟩ := dropWhile_digits h
  have hexp : (0 : ℤ) - ((([] : List Char).length : ℕ) : ℤ) = 0 := rfl
  simp only [decimalOf, htake, hdrop, exponentOf, Option.bind_some,
    List.append_nil, hne, false_and, if_false, hexp, zpow_zero, mul_one]
  exact nearestDouble_natCast hlow

/-- A digit is not a blank. -/
theorem trim_digits {s : String} (h : ∀ c ∈ s.toList, c.isDigit = true) :
    trim s = s := by
  have hblank : ∀ c ∈ s.toList, isBlank c = false := by
    intro c hc
    have hdigit := Char.isDigit_iff_toNat.1 (h c hc)
    have hlow : 48 ≤ c.toNat := hdigit.1
    have hhigh : c.toNat ≤ 57 := hdigit.2
    clear hdigit
    simp only [isBlank, List.contains_eq_mem, List.mem_cons, List.not_mem_nil,
      or_false, Bool.or_eq_false_iff, decide_eq_false_iff_not]
    omega
  have hkeep (cs : List Char) (hcs : ∀ c ∈ cs, isBlank c = false) :
      cs.dropWhile isBlank = cs := by
    cases cs with
    | nil => rfl
    | cons c cs =>
        exact List.dropWhile_cons_of_neg (by
          rw [hcs c List.mem_cons_self]
          exact Bool.false_ne_true)
  rw [trim, hkeep _ hblank,
    hkeep _ fun c hc => hblank c (List.mem_reverse.1 hc), List.reverse_reverse,
    String.ofList_toList]

theorem number_toString {n : ℕ} (h : n < 2 ^ 53) :
    number (toString n) = some (n : ℚ) := by
  have hdigits : (toString n).toList = Nat.toDigits 10 n := Nat.toList_repr
  have hall : ∀ c ∈ Nat.toDigits 10 n, c.isDigit = true := fun _ hc =>
    Nat.isDigit_of_mem_toDigits (by decide) (by decide) hc
  have hvalue : Nat.ofDigitChars 10 (Nat.toDigits 10 n) 0 = n :=
    Nat.ofDigitChars_ten_toDigits
  have hread := decimalOf_digits hall Nat.toDigits_ne_nil (by rwa [hvalue])
  rw [hvalue] at hread
  rw [number, trim_digits (by rwa [hdigits]), hdigits, ← hread]
  split
  · next hnil => exact absurd hnil Nat.toDigits_ne_nil
  · next heq => exact absurd (hall 'x' (by simp [heq])) (by decide)
  · next heq => exact absurd (hall 'X' (by simp [heq])) (by decide)
  · next heq => exact absurd (hall 'o' (by simp [heq])) (by decide)
  · next heq => exact absurd (hall 'O' (by simp [heq])) (by decide)
  · next heq => exact absurd (hall 'b' (by simp [heq])) (by decide)
  · next heq => exact absurd (hall 'B' (by simp [heq])) (by decide)
  · next heq => exact absurd (hall '+' (by simp [heq])) (by decide)
  · next heq => exact absurd (hall '-' (by simp [heq])) (by decide)
  · rfl

end Rch

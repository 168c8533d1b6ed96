import Mathlib.Data.String.Basic
import Mathlib.Order.Monotone.Basic
import Rch.Kit.Decimal

/-!
# The civil calendar

Days are counted from the first of January 1970, and a count is read as a date
by the usual era arithmetic: an era is four hundred years, a year runs from
March so that its leap day is its last, and the months from March have their
lengths in one formula.

The order of the days is the order of the dates, year first, and the count of a
date's day is got back from the date. Both rest on one fact about the year of an
era: it is the one whose first day is the last not after the day.
-/

namespace Kit

namespace Calendar

/-- The days of an era before one of its years. -/
def yearStart (y : ℕ) : ℕ := 365 * y + y / 4 - y / 100 + y / 400

def yearNo (doe : ℕ) : ℕ := (doe - doe / 1460 + doe / 36524 - doe / 146096) / 365

/-- The days of a year before one of its months, from March. -/
def monthStart (mp : ℕ) : ℕ := (153 * mp + 2) / 5

def monthNo (doy : ℕ) : ℕ := (5 * doy + 2) / 153

/-- The date of a day: year, month and day of the month. -/
def civil (day : ℤ) : ℤ × ℕ × ℕ :=
  let z := day + 719468
  let doe := (z % 146097).toNat
  let yoe := (doe - doe / 1460 + doe / 36524 - doe / 146096) / 365
  let doy := doe - (365 * yoe + yoe / 4 - yoe / 100)
  let mp := (5 * doy + 2) / 153
  let m := if mp < 10 then mp + 3 else mp - 9
  let y := (yoe : ℤ) + z / 146097 * 400
  (if m ≤ 2 then y + 1 else y, m, doy - (153 * mp + 2) / 5 + 1)

/-- The day of a date. A day past its month's end is counted on into the next. -/
def dayOf (y : ℤ) (m d : ℕ) : ℤ :=
  let y := if m ≤ 2 then y - 1 else y
  let mp := if m ≤ 2 then m + 9 else m - 3
  y / 400 * 146097 + (yearStart (y % 400).toNat + monthStart mp + d : ℕ) - 719469

/-! ## The year of an era -/

theorem yearNo_mono : Monotone yearNo := by
  refine monotone_nat_of_le_succ fun n => Nat.div_le_div_right ?_
  -- four centuries and four times a century are one
  have hera : ∀ k, k / 146096 = k / 36524 / 4 :=
    fun k => (Nat.div_div_eq_div_mul k 36524 4).symm
  have hleap : (n + 1) / 1460 ≤ n / 1460 + 1 := by omega
  have hcentury : n / 36524 ≤ (n + 1) / 36524 := by omega
  have hcentury' : (n + 1) / 36524 ≤ n / 36524 + 1 := by omega
  have hle : n / 1460 ≤ n := by omega
  rw [hera, hera]
  generalize (n + 1) / 36524 = b' at *
  generalize n / 36524 = b at *
  generalize (n + 1) / 1460 = c' at *
  generalize n / 1460 = c at *
  omega

theorem yearNo_start : ∀ y < 400, yearNo (yearStart y) = y ∧
    yearNo (yearStart (y + 1) - 1) = y ∧ yearStart y < yearStart (y + 1) := by
  decide +kernel

theorem yearStart_mono : Monotone yearStart := by
  refine monotone_nat_of_le_succ fun y => ?_
  unfold yearStart
  have hcentury : y / 100 ≤ y / 4 := by omega
  have hcentury' : (y + 1) / 100 ≤ y / 100 + 1 := by omega
  have hleap : y / 4 ≤ (y + 1) / 4 := by omega
  have hera : y / 400 ≤ (y + 1) / 400 := by omega
  omega

/-- A day of an era is in its year: not before the first day of it, and before
the first of the next. -/
theorem yearNo_spec {doe : ℕ} (h : doe < 146097) :
    yearNo doe < 400 ∧ yearStart (yearNo doe) ≤ doe ∧
      doe < yearStart (yearNo doe + 1) := by
  have hlast : yearNo 146096 = 399 := by decide +kernel
  have hyear : yearNo doe < 400 := by
    have hle := yearNo_mono (show doe ≤ 146096 by omega)
    omega
  obtain ⟨hstart, hend, hlt⟩ := yearNo_start (yearNo doe) hyear
  refine ⟨hyear, ?_, ?_⟩
  · by_contra hbefore
    -- a day before the year's first is at most the year before's last
    cases hy : yearNo doe with
    | zero =>
        rw [hy] at hbefore
        exact hbefore (Nat.zero_le doe)
    | succ y =>
        rw [hy] at hbefore
        have hle := yearNo_mono (show doe ≤ yearStart (y + 1) - 1 by omega)
        rw [(yearNo_start y (by omega)).2.1] at hle
        omega
  · by_contra hafter
    by_cases hnext : yearNo doe + 1 < 400
    · have hle := yearNo_mono (Nat.not_lt.1 hafter)
      rw [(yearNo_start (yearNo doe + 1) hnext).1] at hle
      omega
    · have hera : yearStart 400 = 146097 := by decide +kernel
      have hsame : yearNo doe + 1 = 400 := by omega
      rw [hsame, hera] at hafter
      omega

theorem yearStart_of_lt {y : ℕ} (h : y < 400) :
    365 * y + y / 4 - y / 100 = yearStart y := by
  unfold yearStart
  rw [Nat.div_eq_of_lt h, Nat.add_zero]

theorem length_year_le (y : ℕ) : yearStart (y + 1) ≤ yearStart y + 366 := by
  unfold yearStart
  have h₁ : (y + 1) / 4 ≤ y / 4 + 1 := by omega
  have h₂ : y / 100 ≤ (y + 1) / 100 := by omega
  have h₃ : y / 100 ≤ y / 4 := by omega
  -- an era's end is a century's and a leap year's
  have h₄ : (y + 1) / 400 ≤ y / 400 + 1 := by omega
  have h₅ : (y + 1) / 400 = y / 400 + 1 → (y + 1) / 100 = y / 100 + 1 := by omega
  omega

/-! ## A day, by its parts -/

/-- A day as an era, a year of it from March, a month of that and a day. -/
structure Parts (day era : ℤ) (yoe mp d : ℕ) : Prop where
  yoe_lt : yoe < 400
  mp_lt : mp < 12
  d_pos : 1 ≤ d
  d_le : d ≤ 31
  sum : day = era * 146097 + (yearStart yoe + monthStart mp + d : ℕ) - 719469
  in_month : monthStart mp + d ≤ monthStart (mp + 1)
  in_year : yearStart yoe + monthStart mp + d ≤ yearStart (yoe + 1)
  date : civil day =
    (if (if mp < 10 then mp + 3 else mp - 9) ≤ 2 then yoe + era * 400 + 1
      else yoe + era * 400, if mp < 10 then mp + 3 else mp - 9, d)

theorem monthNo_spec : ∀ doy < 366, monthNo doy < 12 ∧ monthStart (monthNo doy) ≤ doy ∧
    doy < monthStart (monthNo doy + 1) ∧ doy < monthStart (monthNo doy) + 31 := by
  decide +kernel

theorem parts (day : ℤ) : ∃ era yoe mp d, Parts day era yoe mp d := by
  have hnonneg : 0 ≤ (day + 719468) % 146097 := Int.emod_nonneg _ (by decide)
  have hlt : (day + 719468) % 146097 < 146097 := Int.emod_lt_of_pos _ (by decide)
  have hsplit : (day + 719468) / 146097 * 146097 + (day + 719468) % 146097 =
      day + 719468 := by omega
  obtain ⟨doe, hdoe⟩ := Int.eq_ofNat_of_zero_le hnonneg
  have hyear := yearNo_spec (show doe < 146097 by omega)
  have hlength := length_year_le (yearNo doe)
  obtain ⟨doy, hdoy⟩ := Nat.exists_eq_add_of_le hyear.2.1
  have hmonth := monthNo_spec doy (by omega)
  obtain ⟨d, hd⟩ := Nat.exists_eq_add_of_le hmonth.2.1
  refine ⟨(day + 719468) / 146097, yearNo doe, monthNo doy, d + 1, hyear.1, hmonth.1,
    by omega, by omega, ?_, by omega, by omega, ?_⟩
  · push_cast
    omega
  · have hyoe : (doe - doe / 1460 + doe / 36524 - doe / 146096) / 365 = yearNo doe := rfl
    have hstart := yearStart_of_lt hyear.1
    have hrest : doe - yearStart (yearNo doe) = doy := by omega
    have hmp : (5 * doy + 2) / 153 = monthNo doy := rfl
    have hday : doy - (153 * monthNo doy + 2) / 5 + 1 = d + 1 := by
      change doy - monthStart (monthNo doy) + 1 = d + 1
      omega
    unfold civil
    dsimp only
    rw [hdoe, Int.toNat_natCast, hyoe, hstart, hrest, hmp, hday]

/-! ## The order of the days -/

/-- One date is before another: by the year, then the month, then the day. -/
def Before (a b : ℤ × ℕ × ℕ) : Prop :=
  a.1 < b.1 ∨ a.1 = b.1 ∧ (a.2.1 < b.2.1 ∨ a.2.1 = b.2.1 ∧ a.2.2 < b.2.2)

theorem Before.irrefl (a : ℤ × ℕ × ℕ) : ¬ Before a a := by
  unfold Before
  omega

theorem Before.asymm {a b : ℤ × ℕ × ℕ} (h : Before a b) : ¬ Before b a := by
  unfold Before at *
  omega

theorem monthStart_mono : Monotone monthStart := by
  refine monotone_nat_of_le_succ fun n => ?_
  unfold monthStart
  omega

/-- Of two days the earlier has the smaller era, or the same and the smaller
year of it, and so on down. -/
theorem Parts.lt {day day' era era' : ℤ} {yoe yoe' mp mp' d d' : ℕ}
    (p : Parts day era yoe mp d) (p' : Parts day' era' yoe' mp' d') (h : day < day') :
    era < era' ∨ era = era' ∧ (yoe < yoe' ∨ yoe = yoe' ∧
      (mp < mp' ∨ mp = mp' ∧ d < d')) := by
  have hsum := p.sum
  have hsum' := p'.sum
  have hyear := p.in_year
  have hyear' := p'.in_year
  have hera : yearStart 400 = 146097 := by decide +kernel
  have hlast : yearStart (yoe + 1) ≤ 146097 := hera ▸ yearStart_mono p.yoe_lt
  have hlast' : yearStart (yoe' + 1) ≤ 146097 := hera ▸ yearStart_mono p'.yoe_lt
  have hpos := p.d_pos
  have hpos' := p'.d_pos
  push_cast at hsum hsum'
  rcases lt_trichotomy era era' with hlt | rfl | hgt
  · exact .inl hlt
  · refine .inr ⟨rfl, ?_⟩
    rcases lt_trichotomy yoe yoe' with hlt | rfl | hgt
    · exact .inl hlt
    · refine .inr ⟨rfl, ?_⟩
      rcases lt_trichotomy mp mp' with hlt | rfl | hgt
      · exact .inl hlt
      · exact .inr ⟨rfl, by omega⟩
      · have hmonth : monthStart (mp' + 1) ≤ monthStart mp := monthStart_mono hgt
        have hin := p'.in_month
        omega
    · have hle : yearStart (yoe' + 1) ≤ yearStart yoe := yearStart_mono hgt
      omega
  · omega

theorem civil_before {day day' : ℤ} (h : day < day') :
    Before (civil day) (civil day') := by
  obtain ⟨era, yoe, mp, d, p⟩ := parts day
  obtain ⟨era', yoe', mp', d', p'⟩ := parts day'
  have hlt := p.lt p' h
  have hyoe := p.yoe_lt
  have hyoe' := p'.yoe_lt
  have hmp := p.mp_lt
  have hmp' := p'.mp_lt
  rw [p.date, p'.date]
  unfold Before
  dsimp only
  split <;> split <;> split <;> split <;> omega

theorem civil_before_iff {day day' : ℤ} :
    Before (civil day) (civil day') ↔ day < day' := by
  refine ⟨fun h => ?_, civil_before⟩
  rcases lt_trichotomy day day' with hlt | rfl | hgt
  · exact hlt
  · exact absurd h (Before.irrefl _)
  · exact absurd h (civil_before hgt).asymm

theorem civil_injective : Function.Injective civil := by
  intro day day' h
  rcases lt_trichotomy day day' with hlt | heq | hgt
  · exact absurd (h ▸ civil_before hlt) (Before.irrefl _)
  · exact heq
  · exact absurd (h ▸ civil_before hgt) (Before.irrefl _)

/-- The month is one of twelve, the day one of at most thirty-one. -/
theorem civil_bounds (day : ℤ) : 1 ≤ (civil day).2.1 ∧ (civil day).2.1 ≤ 12 ∧
    1 ≤ (civil day).2.2 ∧ (civil day).2.2 ≤ 31 := by
  obtain ⟨era, yoe, mp, d, p⟩ := parts day
  have hmp := p.mp_lt
  have hpos := p.d_pos
  have hle := p.d_le
  rw [p.date]
  dsimp only
  split <;> omega

theorem dayOf_civil (day : ℤ) :
    dayOf (civil day).1 (civil day).2.1 (civil day).2.2 = day := by
  obtain ⟨era, yoe, mp, d, p⟩ := parts day
  have hyoe := p.yoe_lt
  have hmp := p.mp_lt
  have hsum := p.sum
  have hera : (yoe + era * 400) / 400 = era := by omega
  have hyear : ((yoe + era * 400) % 400).toNat = yoe := by omega
  rw [p.date]
  unfold dayOf
  dsimp only
  by_cases hmarch : mp < 10
  · have hlate : ¬ mp + 3 ≤ 2 := by omega
    have hback : mp + 3 - 3 = mp := by omega
    simp only [if_pos hmarch, if_neg hlate, hera, hyear, hback]
    omega
  · have hearly : mp - 9 ≤ 2 := by omega
    have hyear' : (yoe : ℤ) + era * 400 + 1 - 1 = yoe + era * 400 := by omega
    have hback : mp - 9 + 9 = mp := by omega
    simp only [if_neg hmarch, if_pos hearly, hyear', hera, hyear, hback]
    omega

/-- No date of a year from the year none on is before that year's first day. -/
theorem dayOf_bound {y : ℤ} {m d : ℕ} (hy : 0 ≤ y) (hm : 1 ≤ m) (hd : 1 ≤ d) :
    -719528 ≤ dayOf y m d := by
  unfold dayOf
  dsimp only
  by_cases hearly : m ≤ 2
  · rw [if_pos hearly, if_pos hearly]
    by_cases hzero : y = 0
    · have hlast : yearStart ((y - 1) % 400).toNat = 145731 := by
        rw [hzero]
        decide +kernel
      have hmonth : monthStart 10 ≤ monthStart (m + 9) := monthStart_mono (by omega)
      have hten : monthStart 10 = 306 := by decide
      rw [hlast]
      omega
    · omega
  · rw [if_neg hearly, if_neg hearly]
    omega

/-- So a date that late has a year that is not less. -/
theorem civil_year_nonneg {day : ℤ} (h : -719528 ≤ day) : 0 ≤ (civil day).1 := by
  have hfirst : civil (-719528) = (0, 1, 1) := by decide +kernel
  by_contra hneg
  have hbefore : Before (civil day) (civil (-719528)) := by
    rw [hfirst]
    exact .inl (not_le.1 hneg)
  have hlt := civil_before_iff.1 hbefore
  omega

/-! ## Digits of one width -/

theorem isDigit_bounds {c : Char} (h : c.isDigit = true) :
    48 ≤ c.toNat ∧ c.toNat ≤ 57 := by
  rw [Char.isDigit, Bool.and_eq_true_iff, decide_eq_true_eq, decide_eq_true_eq] at h
  exact ⟨UInt32.le_iff_toNat_le.1 h.1, UInt32.le_iff_toNat_le.1 h.2⟩

theorem ofDigitChars_cons {c : Char} {l : List Char} :
    Nat.ofDigitChars 10 (c :: l) 0 =
      10 ^ l.length * (c.toNat - 48) + Nat.ofDigitChars 10 l 0 := by
  rw [Nat.ofDigitChars_cons, Nat.ofDigitChars_eq_ofDigitChars_zero, Nat.mul_zero,
    Nat.zero_add]
  rfl

theorem ofDigitChars_bound {l : List Char} (h : ∀ c ∈ l, c.isDigit = true) :
    Nat.ofDigitChars 10 l 0 < 10 ^ l.length := by
  induction l with
  | nil => exact Nat.zero_lt_one
  | cons c l ih =>
      rw [List.forall_mem_cons] at h
      have hc := isDigit_bounds h.1
      have hl := ih h.2
      rw [ofDigitChars_cons, List.length_cons, pow_succ]
      have hle : 10 ^ l.length * (c.toNat - 48) ≤ 10 ^ l.length * 9 :=
        Nat.mul_le_mul_left _ (by omega)
      omega

/-- Digits of one width are in the order of the numbers they read as. -/
theorem digits_lt_iff {l m : List Char} (hlen : l.length = m.length)
    (hl : ∀ c ∈ l, c.isDigit = true) (hm : ∀ c ∈ m, c.isDigit = true) :
    l < m ↔ Nat.ofDigitChars 10 l 0 < Nat.ofDigitChars 10 m 0 := by
  induction l generalizing m with
  | nil =>
      rw [List.length_eq_zero_iff.1 hlen.symm]
      exact ⟨fun h => absurd h (List.lt_irrefl []), fun h => absurd h (lt_irrefl _)⟩
  | cons c l ih =>
      cases m with
      | nil => cases hlen
      | cons e m =>
          rw [List.forall_mem_cons] at hl hm
          have hlen : l.length = m.length := Nat.succ.inj hlen
          have hbound := ofDigitChars_bound hl.2
          have hbound' := ofDigitChars_bound hm.2
          have hc := isDigit_bounds hl.1
          have he := isDigit_bounds hm.1
          have hchar : ∀ {x y : Char}, x < y ↔ x.toNat < y.toNat := Iff.rfl
          rw [List.cons_lt_cons_iff, ofDigitChars_cons, ofDigitChars_cons, ih hlen hl.2 hm.2,
            hlen, hchar]
          rw [hlen] at hbound
          rcases lt_trichotomy c.toNat e.toNat with hlt | heq | hgt
          · refine ⟨fun _ => ?_, fun _ => .inl hlt⟩
            have hstep : 10 ^ m.length * (c.toNat - 48) + 10 ^ m.length ≤
                10 ^ m.length * (e.toNat - 48) := by
              rw [← Nat.mul_succ]
              exact Nat.mul_le_mul_left _ (by omega)
            omega
          · have hsame : c = e := Char.toNat_inj.1 heq
            rw [hsame]
            constructor
            · rintro (h | ⟨-, h⟩)
              · exact absurd h (lt_irrefl _)
              · exact Nat.add_lt_add_left h _
            · exact fun h => .inr ⟨rfl, Nat.lt_of_add_lt_add_left h⟩
          · have hne : c ≠ e := fun h => by
              rw [h] at hgt
              exact lt_irrefl _ hgt
            have hstep : 10 ^ m.length * (e.toNat - 48) + 10 ^ m.length ≤
                10 ^ m.length * (c.toNat - 48) := by
              rw [← Nat.mul_succ]
              exact Nat.mul_le_mul_left _ (by omega)
            constructor
            · rintro (h | ⟨h, -⟩)
              · omega
              · exact absurd h hne
            · intro h
              omega

theorem length_pad {w n : ℕ} (hw : 0 < w) (h : n < 10 ^ w) :
    (Decimal.pad w n).toList.length = w := by
  have hdigits := (Nat.length_toDigits_le_iff (by decide) hw).2 h
  have hprinted : (toString n).length = (Nat.toDigits 10 n).length := by
    rw [← String.length_toList]
    exact congrArg List.length Nat.toList_repr
  rw [Decimal.toList_pad, List.length_append, List.length_replicate, hprinted]
  omega

theorem pad_lt_iff {w m n : ℕ} (hw : 0 < w) (hm : m < 10 ^ w) (hn : n < 10 ^ w) :
    (Decimal.pad w m).toList < (Decimal.pad w n).toList ↔ m < n := by
  rw [digits_lt_iff ((length_pad hw hm).trans (length_pad hw hn).symm)
    (fun _ => Decimal.isDigit_pad) (fun _ => Decimal.isDigit_pad),
    Decimal.ofDigitChars_pad, Decimal.ofDigitChars_pad]

/-! ## Dates as they are written -/

/-- A date as `yyyy-mm-dd`. -/
def stamp (date : ℤ × ℕ × ℕ) : String :=
  Decimal.pad 4 date.1.toNat ++ "-" ++ Decimal.pad 2 date.2.1 ++ "-"
    ++ Decimal.pad 2 date.2.2

/-- The date every part of which is as wide as it is written. -/
structure Fits (date : ℤ × ℕ × ℕ) : Prop where
  nonneg : 0 ≤ date.1
  year : date.1 < 10000
  month : date.2.1 < 100
  day : date.2.2 < 100

/-- A date written `yyyy-mm-dd`, whether or not the calendar has it. -/
def readStamp (s : String) : Option (ℤ × ℕ × ℕ) :=
  let read (l : List Char) : Option ℕ :=
    if l.all Char.isDigit then some (Nat.ofDigitChars 10 l 0) else none
  let l := s.toList
  if l.length = 10 ∧ l[4]? = some '-' ∧ l[7]? = some '-' then do
    let y ← read (l.take 4)
    let m ← read ((l.drop 5).take 2)
    let d ← read (l.drop 8)
    pure (y, m, d)
  else none

theorem append_lt_append {l l' m m' : List Char} (h : l.length = l'.length) :
    l ++ m < l' ++ m' ↔ l < l' ∨ l = l' ∧ m < m' := by
  induction l generalizing l' with
  | nil =>
      rw [List.length_eq_zero_iff.1 h.symm]
      simp
  | cons c l ih =>
      cases l' with
      | nil => cases h
      | cons c' l' =>
          rw [List.cons_append, List.cons_append, List.cons_lt_cons_iff,
            List.cons_lt_cons_iff, ih (Nat.succ.inj h), List.cons.injEq]
          constructor
          · rintro (h | ⟨h, h' | ⟨h', h''⟩⟩)
            · exact .inl (.inl h)
            · exact .inl (.inr ⟨h, h'⟩)
            · exact .inr ⟨⟨h, h'⟩, h''⟩
          · rintro ((h | ⟨h, h'⟩) | ⟨⟨h, h'⟩, h''⟩)
            · exact .inl h
            · exact .inr ⟨h, .inl h'⟩
            · exact .inr ⟨h, .inr ⟨h', h''⟩⟩

theorem toList_stamp (a : ℤ × ℕ × ℕ) : (stamp a).toList =
    (Decimal.pad 4 a.1.toNat).toList ++ ('-' :: ((Decimal.pad 2 a.2.1).toList ++
      ('-' :: (Decimal.pad 2 a.2.2).toList))) := by
  have hdash : ("-" : String).toList = ['-'] := rfl
  simp only [stamp, String.toList_append, hdash, List.append_assoc, List.cons_append,
    List.nil_append]

theorem Fits.widths {a : ℤ × ℕ × ℕ} (h : Fits a) :
    (Decimal.pad 4 a.1.toNat).toList.length = 4 ∧
      (Decimal.pad 2 a.2.1).toList.length = 2 ∧
      (Decimal.pad 2 a.2.2).toList.length = 2 := by
  have hyear := h.year
  have hy : a.1.toNat < 10 ^ 4 := by omega
  exact ⟨length_pad (by decide) hy, length_pad (by decide) (show a.2.1 < 10 ^ 2 from h.month),
    length_pad (by decide) (show a.2.2 < 10 ^ 2 from h.day)⟩

theorem pad_eq_iff {w m n : ℕ} :
    (Decimal.pad w m).toList = (Decimal.pad w n).toList ↔ m = n :=
  ⟨fun h => Decimal.pad_injective w (String.toList_inj.1 h), fun h => by rw [h]⟩

/-- A number of one width and what is written after it, in order. -/
theorem pad_cons_lt_iff {w m n : ℕ} {c : Char} {l l' : List Char} (hw : 0 < w)
    (hm : m < 10 ^ w) (hn : n < 10 ^ w) :
    (Decimal.pad w m).toList ++ c :: l < (Decimal.pad w n).toList ++ c :: l' ↔
      m < n ∨ m = n ∧ l < l' := by
  have hcons : c :: l < c :: l' ↔ l < l' := by
    rw [List.cons_lt_cons_iff]
    exact ⟨fun h => h.elim (fun h => absurd h (lt_irrefl _)) And.right,
      fun h => .inr ⟨rfl, h⟩⟩
  rw [append_lt_append ((length_pad hw hm).trans (length_pad hw hn).symm),
    pad_lt_iff hw hm hn, pad_eq_iff, hcons]

theorem stamp_lt_iff {a b : ℤ × ℕ × ℕ} (ha : Fits a) (hb : Fits b) :
    stamp a < stamp b ↔ Before a b := by
  have hyear := ha.year
  have hyear' := hb.year
  have hy : a.1.toNat < 10 ^ 4 := by omega
  have hy' : b.1.toNat < 10 ^ 4 := by omega
  rw [String.lt_iff, toList_stamp, toList_stamp, pad_cons_lt_iff (by decide) hy hy',
    pad_cons_lt_iff (by decide) (show a.2.1 < 10 ^ 2 from ha.month) hb.month,
    pad_lt_iff (by decide) (show a.2.2 < 10 ^ 2 from ha.day) hb.day]
  have hnonneg := ha.nonneg
  have hnonneg' := hb.nonneg
  unfold Before
  omega

theorem stamp_civil_le {a b : ℤ} (ha : Fits (civil a)) (hb : Fits (civil b)) :
    stamp (civil a) ≤ stamp (civil b) ↔ a ≤ b := by
  rw [← not_lt, stamp_lt_iff hb ha, civil_before_iff, not_lt]

theorem stamp_injective {a b : ℤ × ℕ × ℕ} (ha : Fits a) (hb : Fits b)
    (h : stamp a = stamp b) : a = b := by
  have hab : ¬ Before a b := by
    rw [← stamp_lt_iff ha hb, h]
    exact lt_irrefl _
  have hba : ¬ Before b a := by
    rw [← stamp_lt_iff hb ha, h]
    exact lt_irrefl _
  obtain ⟨y, m, d⟩ := a
  obtain ⟨y', m', d'⟩ := b
  unfold Before at hab hba
  dsimp only at hab hba
  simp only [Prod.mk.injEq]
  omega

/-- What is read as a date is ten characters, its year no less than none. -/
theorem readStamp_some {s : String} {a : ℤ × ℕ × ℕ} (h : readStamp s = some a) :
    s.toList.length = 10 ∧ 0 ≤ a.1 := by
  unfold readStamp at h
  dsimp only at h
  split at h
  · next hshape =>
      simp only [Option.bind_eq_bind, Option.bind_eq_some_iff, Option.pure_def,
        Option.some.injEq] at h
      obtain ⟨y, -, m, -, d, -, rfl⟩ := h
      exact ⟨hshape.1, Int.natCast_nonneg y⟩
  · cases h

theorem readStamp_stamp {a : ℤ × ℕ × ℕ} (h : Fits a) : readStamp (stamp a) = some a := by
  obtain ⟨hwy, hwm, hwd⟩ := h.widths
  have hnonneg := h.nonneg
  have hyear : ((a.1.toNat : ℕ) : ℤ) = a.1 := Int.toNat_of_nonneg hnonneg
  have hread : ∀ w n, (Decimal.pad w n).toList.all Char.isDigit = true :=
    fun w n => List.all_eq_true.2 fun _ => Decimal.isDigit_pad
  have hy := hread 4 a.1.toNat
  have hm := hread 2 a.2.1
  have hd := hread 2 a.2.2
  have hoy := Decimal.ofDigitChars_pad 4 a.1.toNat
  have hom := Decimal.ofDigitChars_pad 2 a.2.1
  have hod := Decimal.ofDigitChars_pad 2 a.2.2
  rw [readStamp, toList_stamp]
  generalize (Decimal.pad 4 a.1.toNat).toList = ly at *
  generalize (Decimal.pad 2 a.2.1).toList = lm at *
  generalize (Decimal.pad 2 a.2.2).toList = ld at *
  obtain ⟨c₁, c₂, c₃, c₄, rfl⟩ := List.length_eq_four.1 hwy
  obtain ⟨c₅, c₆, rfl⟩ := List.length_eq_two.1 hwm
  obtain ⟨c₇, c₈, rfl⟩ := List.length_eq_two.1 hwd
  simp [hy, hm, hd, hoy, hom, hod, hyear]

end Calendar

end Kit

import Rch.Api.Sale

/-!
# The arithmetic of a bill

The concession is rounded to the paisa line by line and nothing else is, so a
bill's figures add up exactly however its lines were rounded. What the rounding
can do is go up past the line itself: a gross of one and a quarter paise given
away whole comes off as one paisa, one of one and a half comes off as two. A
line never goes below nothing exactly where the rate's share of it stays short
of its whole paise and half a paisa more, and then nothing on the bill does.
-/

namespace Rch

open Kit

variable {m : Master} {prices : Prices} {l : LocKey} {cart : List Line}
  {pct : Pct}

/-- The figures a master and its price lists hold: no price, printed or
listed, and no tax rate is below nothing. -/
structure Priced (m : Master) (prices : Prices) : Prop where
  listed : ∀ list it p, prices list it = some p → 0 ≤ p
  mrp : ∀ it p, (m.items it).bind Item.mrp = some p → 0 ≤ p
  gst : ∀ it item, m.items it = some item → 0 ≤ item.gst

/-- What a cart line comes to before any concession. -/
def grossOf (m : Master) (prices : Prices) (l : LocKey) (c : Line) : ℚ :=
  (priceOf m prices l c.it : ℚ) * c.qty

def offOf (m : Master) (prices : Prices) (l : LocKey) (pct : Pct) (c : Line) :
    Money := discountOn (grossOf m prices l c) pct

def taxIn (m : Master) (it : ItemKey) (amt : ℚ) : ℚ :=
  amt - amt / (1 + (((m.items it).map Item.gst).getD 0 : Decimal 2) / 100)

/-- What a bill's figures are to each other. -/
structure BillAddsUp (m : Master) (prices : Prices) (l : LocKey)
    (cart : List Line) (pct : Pct) : Prop where
  /-- no line is charged past its printed price -/
  rate_le_mrp : ∀ line ∈ (planBill m prices l cart pct).lines, ∀ mrp,
    (m.items line.it).bind Item.mrp = some mrp → line.rate ≤ mrp
  /-- no line's discount is below nothing or past its gross -/
  discount : ∀ c ∈ cart, 0 ≤ offOf m prices l pct c ∧
    (offOf m prices l pct c : ℚ) ≤ grossOf m prices l c
  total_nonneg : 0 ≤ round2 (planBill m prices l cart pct).tot
  adds_up : round2 (planBill m prices l cart pct).tot +
      round2 (planBill m prices l cart pct).disc =
    round2 (cart.map (grossOf m prices l)).sum
  tax : 0 ≤ round2 (planBill m prices l cart pct).tax ∧
    round2 (planBill m prices l cart pct).tax ≤
      round2 (planBill m prices l cart pct).tot
  moves : (planBill m prices l cart pct).moves = stockedMoves m l cart

/-- The rate's share of a line, in paise, is short of the line's whole paise
and half a paisa more. -/
def RoundsWithin (m : Master) (prices : Prices) (l : LocKey) (pct : Pct)
    (c : Line) : Prop :=
  grossOf m prices l c * pct.val <
    ⌊grossOf m prices l c * 100⌋ + (1 / 2 : ℚ)

/-! ## The sums of a plan -/

theorem planBill_sums (m : Master) (prices : Prices) (l : LocKey)
    (cart : List Line) (pct : Pct) :
    (planBill m prices l cart pct).tot =
        (cart.map fun c => grossOf m prices l c - offOf m prices l pct c).sum ∧
      (planBill m prices l cart pct).disc =
        ((cart.map (offOf m prices l pct)).sum : Money) ∧
      (planBill m prices l cart pct).tax =
        (cart.map fun c => taxIn m c.it
          (grossOf m prices l c - offOf m prices l pct c)).sum := by
  unfold planBill
  suffices h : ∀ p : BillPlan,
      (cart.foldl (planLine m prices l pct) p).tot = p.tot +
          (cart.map fun c =>
            grossOf m prices l c - offOf m prices l pct c).sum ∧
        (cart.foldl (planLine m prices l pct) p).disc = p.disc +
          ((cart.map (offOf m prices l pct)).sum : Money) ∧
        (cart.foldl (planLine m prices l pct) p).tax = p.tax +
          (cart.map fun c => taxIn m c.it
            (grossOf m prices l c - offOf m prices l pct c)).sum by
    have h₀ := h ⟨[], 0, 0, 0, []⟩
    simpa only [zero_add] using h₀
  induction cart with
  | nil => intro p; simp
  | cons c cart ih =>
      intro p
      obtain ⟨htot, hdisc, htax⟩ := ih (planLine m prices l pct p c)
      rw [List.foldl_cons]
      simp only [List.map_cons, List.sum_cons, Decimal.toRat_add]
      refine ⟨htot.trans ?_, hdisc.trans ?_, htax.trans ?_⟩
      · exact add_assoc ..
      · exact add_assoc ..
      · exact add_assoc ..

theorem priceOf_nonneg (h : Priced m prices) (l : LocKey) (it : ItemKey) :
    0 ≤ priceOf m prices l it := by
  unfold priceOf
  split
  · exact le_refl _
  · split
    · exact le_refl _
    · next hl =>
        split
        · exact h.listed _ _ _ hl
        · next hm =>
            split
            · exact h.mrp _ _ hm
            · exact h.listed _ _ _ hl

theorem priceOf_le_mrp (h : Priced m prices) (l : LocKey) {it : ItemKey}
    {mrp : Money} (hmrp : (m.items it).bind Item.mrp = some mrp) :
    priceOf m prices l it ≤ mrp := by
  unfold priceOf
  split
  · exact h.mrp _ _ hmrp
  · split
    · exact h.mrp _ _ hmrp
    · rw [hmrp]
      dsimp only
      split
      · exact le_refl _
      · next hle => exact not_lt.1 hle

theorem grossOf_nonneg (h : Priced m prices) (l : LocKey) {c : Line}
    (hc : 0 < c.qty) : 0 ≤ grossOf m prices l c :=
  mul_nonneg (Decimal.toRat_nonneg.2 (priceOf_nonneg h l c.it))
    (Decimal.toRat_nonneg.2 hc.le)

theorem offOf_nonneg (h : Priced m prices) (l : LocKey) (pct : Pct) {c : Line}
    (hc : 0 < c.qty) : 0 ≤ offOf m prices l pct c := by
  apply Decimal.round_nonneg
  have hpct : (0 : ℚ) ≤ pct.val := Decimal.toRat_nonneg.2 pct.nonneg
  have hgross := grossOf_nonneg h l hc
  positivity

/-- Where the rounding stays within a line. -/
theorem offOf_le_iff (c : Line) :
    (offOf m prices l pct c : ℚ) ≤ grossOf m prices l c ↔
      RoundsWithin m prices l pct c := by
  unfold offOf discountOn round2
  rw [Decimal.round_toRat_le_iff]
  unfold RoundsWithin
  have hpaise : grossOf m prices l c * pct.val / 100 * 10 ^ 2 =
      grossOf m prices l c * pct.val := by ring
  have hhundred : (10 : ℚ) ^ 2 = 100 := by norm_num
  rw [hpaise, hhundred]

theorem taxIn_bounds (h : Priced m prices) (it : ItemKey) {amt : ℚ}
    (ha : 0 ≤ amt) : 0 ≤ taxIn m it amt ∧ taxIn m it amt ≤ amt := by
  have hgst : (0 : ℚ) ≤ (((m.items it).map Item.gst).getD 0 : Decimal 2) := by
    rw [Decimal.toRat_nonneg]
    cases hit : m.items it with
    | none => exact le_refl _
    | some item => exact h.gst it item hit
  have hone : (1 : ℚ) ≤
      1 + (((m.items it).map Item.gst).getD 0 : Decimal 2) / 100 := by
    have := div_nonneg hgst (show (0 : ℚ) ≤ 100 by norm_num)
    linarith
  unfold taxIn
  refine ⟨sub_nonneg.2 (div_le_self ha hone), sub_le_self _ ?_⟩
  exact div_nonneg ha (zero_le_one.trans hone)

/-- Whatever the lines rounded to, total and discount are the gross. -/
theorem planBill_adds_up (m : Master) (prices : Prices) (l : LocKey)
    (cart : List Line) (pct : Pct) :
    round2 (planBill m prices l cart pct).tot +
        round2 (planBill m prices l cart pct).disc =
      round2 (cart.map (grossOf m prices l)).sum := by
  obtain ⟨htot, hdisc, -⟩ := planBill_sums m prices l cart pct
  have hsplit : (cart.map fun c =>
      grossOf m prices l c - offOf m prices l pct c).sum =
      (-(cart.map (offOf m prices l pct)).sum : Money) +
        (cart.map (grossOf m prices l)).sum := by
    rw [Decimal.toRat_neg]
    induction cart with
    | nil => simp
    | cons c cart ih =>
        have ih' := ih (planBill_sums m prices l cart pct).1
          (planBill_sums m prices l cart pct).2.1
        simp only [List.map_cons, List.sum_cons, Decimal.toRat_add, ih']
        ring
  rw [htot, hdisc, hsplit, round2_add, round2_money]
  abel

/-- A bill's figures are in order exactly where every line's concession stays
within the line once it is rounded. -/
theorem bill_adds_up_iff (h : Priced m prices) (hcart : ∀ c ∈ cart, 0 < c.qty) :
    BillAddsUp m prices l cart pct ↔
      ∀ c ∈ cart, RoundsWithin m prices l pct c := by
  constructor
  · intro hadds c hc
    exact (offOf_le_iff c).1 (hadds.discount c hc).2
  · intro hwithin
    have hnet : ∀ c ∈ cart,
        0 ≤ grossOf m prices l c - offOf m prices l pct c := by
      intro c hc
      exact sub_nonneg.2 ((offOf_le_iff c).2 (hwithin c hc))
    obtain ⟨htot, -, htax⟩ := planBill_sums m prices l cart pct
    have htaxes : ∀ c ∈ cart,
        0 ≤ taxIn m c.it (grossOf m prices l c - offOf m prices l pct c) ∧
          taxIn m c.it (grossOf m prices l c - offOf m prices l pct c) ≤
            grossOf m prices l c - offOf m prices l pct c := by
      intro c hc
      exact taxIn_bounds h c.it (hnet c hc)
    refine ⟨?_, ?_, ?_, planBill_adds_up .., ⟨?_, ?_⟩, planBill_moves ..⟩
    · intro line hline mrp hmrp
      rw [planBill_lines] at hline
      obtain ⟨c, -, rfl⟩ := List.mem_map.1 hline
      exact priceOf_le_mrp h l hmrp
    · intro c hc
      exact ⟨offOf_nonneg h l pct (hcart c hc),
        (offOf_le_iff c).2 (hwithin c hc)⟩
    · rw [htot]
      apply Decimal.round_nonneg
      apply List.sum_nonneg
      intro x hx
      obtain ⟨c, hc, rfl⟩ := List.mem_map.1 hx
      exact hnet c hc
    · rw [htax]
      apply Decimal.round_nonneg
      apply List.sum_nonneg
      intro x hx
      obtain ⟨c, hc, rfl⟩ := List.mem_map.1 hx
      exact (htaxes c hc).1
    · rw [htax, htot]
      apply Decimal.round_mono
      apply List.sum_le_sum
      intro c hc
      exact (htaxes c hc).2

/-! ## A kitchen counter that gives everything away -/

/-- A counter selling two loaves by weight, at twelve rupees fifty-five. -/
def breadCounter : Master where
  items := fun it =>
    if it = "rye" ∨ it = "bun" then
      some ⟨it, "kg", .FG, ⟨500⟩, none, none, none, true⟩
    else none
  locations := fun l =>
    if l = "cafe" then some ⟨"Cafe", .Outlet, some "PL-001", true⟩ else none

def breadPrices : Prices := fun _ it =>
  if it = "rye" ∨ it = "bun" then some ⟨1255⟩ else none

theorem giveaway_nonneg : (0 : Decimal 2) ≤ ⟨10000⟩ := by decide

def giveaway : Pct := ⟨⟨10000⟩, giveaway_nonneg, le_refl _⟩

theorem breadCounter_priced : Priced breadCounter breadPrices where
  listed list it p hp := by
    unfold breadPrices at hp
    split at hp
    · obtain rfl := Option.some.inj hp
      decide
    · cases hp
  mrp it p hp := by
    unfold breadCounter at hp
    dsimp only at hp
    split at hp
    · cases hp
    · cases hp
  gst it item hit := by
    unfold breadCounter at hit
    dsimp only at hit
    split at hit
    · obtain rfl := Option.some.inj hit
      exact show (0 : Decimal 2) ≤ ⟨500⟩ by decide
    · cases hit

/-- A whole kilo of each, given away: nothing is charged and nothing is owed. -/
theorem bill_adds_up_whole_kilos :
    BillAddsUp breadCounter breadPrices "cafe"
      [⟨"rye", ⟨1000⟩⟩, ⟨"bun", ⟨1000⟩⟩] giveaway := by
  refine (bill_adds_up_iff breadCounter_priced (by decide)).2 ?_
  unfold RoundsWithin
  decide +kernel

/-- A hundred grams of each, given away: a rupee and twenty-five and a half
paise comes off each as one rupee twenty-six, and the bill is stored for one
paisa less than nothing. -/
theorem bill_below_nothing :
    ¬ BillAddsUp breadCounter breadPrices "cafe"
      [⟨"rye", ⟨100⟩⟩, ⟨"bun", ⟨100⟩⟩] giveaway := by
  intro h
  exact absurd h.total_nonneg (by decide +kernel)

end Rch

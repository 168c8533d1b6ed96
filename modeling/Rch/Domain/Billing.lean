import Rch.Domain.Availability

/-!
# The arithmetic of a sale

A location charges its list price, capped at the printed MRP. The party's rate
comes off each line, rounded to the paisa once, and the tax is derived from
what is left. The totals stay exact until the sale stores them.
-/

namespace Rch

open Kit

abbrev Prices := String → ItemKey → Option Money

/-- A discount rate the system stores: between nothing and a giveaway. -/
structure Pct where
  val : Decimal 2
  nonneg : 0 ≤ val
  le_hundred : val ≤ ⟨10000⟩
deriving DecidableEq

def Pct.zero : Pct := ⟨0, le_refl 0, by decide⟩

/-- What a location charges for an item, capped at the MRP at read time. -/
def priceOf (m : Master) (prices : Prices) (l : LocKey) (it : ItemKey) :
    Money :=
  match (m.locations l).bind Location.list with
  | none => 0
  | some list =>
    match prices list it with
    | none => 0
    | some listed =>
      match (m.items it).bind Item.mrp with
      | none => listed
      | some mrp => if mrp < listed then mrp else listed

/-- What `pct` takes off `amount`, to the paisa. -/
def discountOn (amount : ℚ) (pct : Pct) : Money :=
  round2 (amount * pct.val / 100)

structure BillLine where
  it : ItemKey
  qty : Qty
  rate : Money
deriving DecidableEq

/-- A move a plan asks for, before it is posted under a document. -/
structure PlannedMove where
  loc : LocKey
  it : ItemKey
  qty : Qty
deriving DecidableEq

structure BillPlan where
  lines : List BillLine
  /-- What is owed: the gross less the discount. -/
  tot : ℚ
  disc : ℚ
  tax : ℚ
  moves : List PlannedMove

def planLine (m : Master) (prices : Prices) (l : LocKey) (pct : Pct)
    (p : BillPlan) (c : Line) : BillPlan :=
  let price := priceOf m prices l c.it
  let gross : ℚ := (price : ℚ) * c.qty
  let off := discountOn gross pct
  let amt := gross - off
  let gst : ℚ := (((m.items c.it).map Item.gst).getD 0 : Decimal 2)
  { lines := p.lines ++ [⟨c.it, c.qty, price⟩]
    tot := p.tot + amt
    disc := p.disc + off
    tax := p.tax + (amt - amt / (1 + gst / 100))
    moves :=
      if m.madeToOrder c.it then p.moves
      else p.moves ++ [⟨l, c.it, -c.qty⟩] }

/-- Price each cart line, take the discount off it, derive the tax, and take
each stocked line off the shelf. -/
def planBill (m : Master) (prices : Prices) (l : LocKey) (cart : List Line)
    (pct : Pct) : BillPlan :=
  cart.foldl (planLine m prices l pct) ⟨[], 0, 0, 0, []⟩

/-! ## The moves of a plan -/

/-- The cart lines that hold stock, as the moves that take them. -/
def stockedMoves (m : Master) (l : LocKey) (cart : List Line) :
    List PlannedMove :=
  (cart.filter fun c => !m.madeToOrder c.it).map fun c => ⟨l, c.it, -c.qty⟩

theorem planBill_moves (m : Master) (prices : Prices) (l : LocKey)
    (cart : List Line) (pct : Pct) :
    (planBill m prices l cart pct).moves = stockedMoves m l cart := by
  unfold planBill
  suffices h : ∀ p : BillPlan,
      (cart.foldl (planLine m prices l pct) p).moves =
        p.moves ++ stockedMoves m l cart from h _
  induction cart with
  | nil => intro p; simp [stockedMoves]
  | cons c cart ih =>
      intro p
      rw [List.foldl_cons, ih]
      by_cases hc : m.madeToOrder c.it = true
      · simp [planLine, stockedMoves, hc]
      · simp [planLine, stockedMoves, hc]

theorem planBill_lines (m : Master) (prices : Prices) (l : LocKey)
    (cart : List Line) (pct : Pct) :
    (planBill m prices l cart pct).lines =
      cart.map fun c => ⟨c.it, c.qty, priceOf m prices l c.it⟩ := by
  unfold planBill
  suffices h : ∀ p : BillPlan,
      (cart.foldl (planLine m prices l pct) p).lines =
        p.lines ++ cart.map fun c =>
          ⟨c.it, c.qty, priceOf m prices l c.it⟩ from h _
  induction cart with
  | nil => intro p; simp
  | cons c cart ih =>
      intro p
      rw [List.foldl_cons, ih]
      simp [planLine]

end Rch

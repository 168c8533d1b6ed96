import Mathlib.Data.List.Sort
import Rch.Api.Ledger

/-!
# The stock ledger

One location's moves over a window, item by item: what was there before it
opened, what came in, what went out and what that leaves. The moves are summed
either side of the window's edge, and an item shows as soon as either side or
the shelf has a line for it.
-/

namespace Rch

open Kit

/-- One item's line over a window. -/
structure LedgerRow where
  it : ItemKey
  opening : Qty
  recd : Qty
  issued : Qty
  closing : Qty
deriving DecidableEq

/-- The ledger's one piece of arithmetic: `inWindow` is signed. -/
def ledgerRow (it : ItemKey) (before : Qty) (inWindow : List Qty) : LedgerRow :=
  let recd := round3 ((inWindow.foldl (fun t q => if 0 < q then t + q else t)
    0 : Qty) : ℚ)
  let issued := round3 ((inWindow.foldl (fun t q => if q < 0 then t - q else t)
    0 : Qty) : ℚ)
  let opening := round3 (before : ℚ)
  { it, opening, recd, issued
    closing := round3 ((opening + recd - issued : Qty) : ℚ) }

/-- What a window's moves of an item came to, split by sign. -/
structure InOut where
  recd : Qty
  issued : Qty
deriving DecidableEq

def openingAt (moves : List MoveRow) (loc : LocKey) (from_ : Instant) :
    List (ItemKey × Qty) :=
  (groups MoveRow.it (moves.filter fun m =>
    decide (m.loc = loc) && decide (m.at_ < from_))).map fun g =>
      (g.1, (g.2.map MoveRow.qty).sum)

def splitBySign (moves : List MoveRow) : InOut where
  recd := (moves.map fun m => if 0 < m.qty then m.qty else 0).sum
  issued := (moves.map fun m => if m.qty < 0 then -m.qty else 0).sum

def movedIn (moves : List MoveRow) (loc : LocKey) (from_ to_ : Instant) :
    List (ItemKey × InOut) :=
  (groups MoveRow.it (moves.filter fun m =>
    decide (m.loc = loc) && decide (from_ ≤ m.at_) && decide (m.at_ < to_))).map
      fun g => (g.1, splitBySign g.2)

/-- `carried` are the items the location has a balance row for. -/
def ledgerRows (moves : List MoveRow) (carried : List ItemKey) (loc : LocKey)
    (from_ to_ : Instant) : List LedgerRow :=
  let before := openingAt moves loc from_
  let inWindow := movedIn moves loc from_ to_
  let keys := ((before.map Prod.fst ++ inWindow.map Prod.fst ++
    carried).eraseDups).insertionSort (· ≤ ·)
  keys.map fun it =>
    let w := (fromEntries inWindow it).getD ⟨0, 0⟩
    ledgerRow it ((fromEntries before it).getD 0) [w.recd, -w.issued]

structure StockLedger where
  loc : LocKey
  from_ : Instant
  to_ : Instant
  rows : List LedgerRow

/-- The last so many days at a location. -/
def stockLedger (moves : List MoveRow) (carried : List ItemKey) (loc : LocKey)
    (days : ℕ) (now : Instant) : StockLedger :=
  let from_ := now - days * 86400000
  ⟨loc, from_, now, ledgerRows moves carried loc from_ now⟩

end Rch

import Rch.Api.Refusal
import Rch.Domain.Ids
import Rch.Domain.Kitchen

/-!
# The ledger and the holds on it

Three tables say where stock is. `moves` is append-only and the only source of
truth; `balances` caches its sums, a row per cell somebody has ever carried;
`reservations` are the holds, open until the collector's scan releases them.

The writers here are the only ones. Locks are taken in one fixed order by the
source, which decides who waits for whom and nothing about the state a batch
leaves, so the loops below visit cells in the order of the batch.

Quantities are decimals here, and `postMoves` adds them as decimals. The code's
quantities are doubles; what it makes of them is in `Doubles` at the end, and
is what `postMoves` does to the quantities as they are stored, as long as none
is next to half a thousandth.
-/

namespace Rch

open Kit

/-- A move as a caller hands it over, its quantity not yet rounded. -/
structure Move where
  loc : LocKey
  it : ItemKey
  qty : ℚ
  kind : MoveKind
  refType : String
  refId : String
  byUser : Option String
  at_ : Instant
  reverses : Option ℕ
deriving DecidableEq

def Move.cell (m : Move) : Cell := ⟨m.loc, m.it⟩

/-- A row of `stock_moves`. -/
structure MoveRow where
  id : ℕ
  loc : LocKey
  it : ItemKey
  qty : Qty
  kind : MoveKind
  refType : String
  refId : String
  byUser : Option String
  at_ : Instant
  reverses : Option ℕ
deriving DecidableEq

def MoveRow.cell (m : MoveRow) : Cell := ⟨m.loc, m.it⟩

/-- A hold as a caller asks for it. -/
structure Hold where
  loc : LocKey
  it : ItemKey
  qty : ℚ
  ticketId : String

/-- A row of `reservations`. -/
structure ReservationRow where
  loc : LocKey
  it : ItemKey
  qty : Qty
  ticketId : String
  releasedAt : Option Instant
deriving DecidableEq

def ReservationRow.cell (r : ReservationRow) : Cell := ⟨r.loc, r.it⟩

/-- `stock_balances`: a row, or none, for each cell. -/
abbrev Balances := Cell → Option Qty

structure Stock where
  balances : Balances
  moves : List MoveRow
  reservations : List ReservationRow

def Stock.empty : Stock := ⟨fun _ => none, [], []⟩

instance : Inhabited Stock := ⟨Stock.empty⟩

/-- On hand at a cell; a cell with no row reads as zero. -/
def Stock.onHand (s : Stock) (c : Cell) : Qty := (s.balances c).getD 0

def Stock.openHolds (s : Stock) : List ReservationRow :=
  s.reservations.filter fun r => r.releasedAt.isNone

def Stock.held (s : Stock) (c : Cell) : Qty :=
  sumOn s.openHolds ReservationRow.cell c ReservationRow.qty

/-- `reservedAt`: what is held at one location, by item. -/
def reservedAt (s : Stock) (loc : LocKey) (it : ItemKey) : Qty :=
  s.held ⟨loc, it⟩

/-- `balancesAt`: what is on hand at one location, by item. -/
def balancesAt (s : Stock) (loc : LocKey) (it : ItemKey) : Qty :=
  s.onHand ⟨loc, it⟩

/-- On hand less held, as every cover check rounds it. -/
def freeAt (s : Stock) (loc : LocKey) (it : ItemKey) : Qty :=
  round3 ((balancesAt s loc it : ℚ) - reservedAt s loc it)

/-! ## The writers -/

/-- Insert a zero row where there is none. -/
def insertZero (b : Balances) (c : Cell) : Balances :=
  fun c' => if c' = c then some ((b c).getD 0) else b c'

/-- Lock the balance rows of these cells, creating the missing ones. -/
def lockBalances (s : Stock) (cells : List Cell) : Stock :=
  { s with balances := cells.foldl insertZero s.balances }

/-- `on_hand = round(on_hand + delta, 3)` on one row. -/
def addOnHand (b : Balances) (p : Cell × Qty) : Balances :=
  fun c => if c = p.1 then
      (b c).map fun (x : Qty) => Decimal.roundAway 3 ((x : ℚ) + p.2)
    else b c

/-- The deltas a batch adds up to, cell by cell, rounded at every addition. -/
def deltasOf (moves : List Move) : List (Cell × Qty) :=
  accumulate Move.cell (fun x m => round3 ((x : ℚ) + m.qty)) 0 moves

def moveRow (id : ℕ) (m : Move) : MoveRow :=
  { id, loc := m.loc, it := m.it, qty := round3 m.qty, kind := m.kind,
    refType := m.refType, refId := m.refId, byUser := m.byUser, at_ := m.at_,
    reverses := m.reverses }

/-- The one door to the ledger: drop the moves that round to nothing, lock
what is left, append the rows, add the deltas to the cache. -/
def postMoves (s : Stock) (moves : List Move) : Stock :=
  let real := moves.filter fun m => decide (round3 m.qty ≠ 0)
  if real = [] then s
  else
    let ordered := deltasOf real
    let s := lockBalances s (ordered.map Prod.fst)
    { s with
      moves := s.moves ++ real.mapIdx fun i m => moveRow (s.moves.length + i + 1) m
      balances := ordered.foldl addOnHand s.balances }

/-- The kitchen's raw materials and packaging are used the moment they land:
each positive move that lands one there is followed by an equal consumption
under the same document. -/
def withUseOnArrival (types : ItemKey → Option ItemType) (moves : List Move) :
    List Move :=
  moves.flatMap fun m =>
    if (types m.it).any (fun t => decide (0 < m.qty) && usedOnArrival t m.loc)
    then [m, { m with qty := -m.qty, kind := .productionConsume }]
    else [m]

/-- Recompute every balance from the moves: zero the rows there are, then add
the moves back on top. No row is deleted. -/
def rebuildBalances (s : Stock) : Stock :=
  let zeroed : Balances := fun c => (s.balances c).map fun _ => 0
  let sums := accumulate MoveRow.cell (fun x m => x + m.qty) (0 : Qty) s.moves
  { s with
    balances := sums.foldl (fun b p => fun c =>
      if c = p.1 then some (Decimal.roundAway 3 (p.2 : ℚ)) else b c) zeroed }

/-- Hold stock where it stands. The table's own check refuses a hold that is
not positive. -/
def reserve (s : Stock) (rows : List Hold) : Outcome Stock := do
  let s := lockBalances s (rows.map fun r => ⟨r.loc, r.it⟩)
  guardOr (∀ r ∈ rows, 0 < round3 r.qty) ⟨.internal, "reservations_qty_ck"⟩
  pure { s with
    reservations := s.reservations ++ rows.map fun r =>
      ⟨r.loc, r.it, round3 r.qty, r.ticketId, none⟩ }

def releaseForTicket (s : Stock) (ticketId : String) (at_ : Instant) : Stock :=
  { s with
    reservations := s.reservations.map fun r =>
      if r.ticketId = ticketId ∧ r.releasedAt = none then
        { r with releasedAt := some at_ }
      else r }

/-! ## As the code's numbers do it -/

namespace Doubles

/-- A quantity as it comes in: the double nearest to what was written. -/
def qtyOf (m : Move) : Double := .ofRat m.qty

/-- What `numeric(12, 3)` can hold. -/
def fits (x : Qty) : Bool := decide (x.units.natAbs < 10 ^ 12)

def deltasOf (moves : List Move) : List (Cell × Qty) :=
  accumulate Move.cell (fun (x : Qty) m => round3 (x.held + qtyOf m)) 0 moves

def moveRow (id : ℕ) (m : Move) : MoveRow :=
  { Rch.moveRow id m with qty := round3 (qtyOf m) }

/-- The moves that do not round to nothing. -/
def real (moves : List Move) : List Move :=
  moves.filter fun m => decide (round3 (qtyOf m) ≠ 0)

/-- The ledger's door. A figure past what its column can hold takes the batch
down. -/
def postMoves (s : Stock) (moves : List Move) : Option Stock :=
  if real moves = [] then some s
  else
    let ordered := deltasOf (real moves)
    let s := lockBalances s (ordered.map Prod.fst)
    let rows := (real moves).mapIdx fun i m => moveRow (s.moves.length + i + 1) m
    let balances := ordered.foldl addOnHand s.balances
    if rows.all (fun m => fits m.qty) ∧
        ordered.all (fun p => (balances p.1).all fits) then
      some { s with moves := s.moves ++ rows, balances := balances }
    else none

end Doubles

end Rch

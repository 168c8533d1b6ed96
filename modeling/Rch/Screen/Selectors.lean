import Rch.Kit.Keyed
import Rch.Screen.Progress

/-!
# What is on its way, item by item

Two figures a stock table shows for every item: what is approved and not yet on
the shelf, and what has been handed over and not yet confirmed. Each is worked
out twice, for one item by filtering what the screen holds, and for every item
at once by walking it.
-/

namespace Rch

open Kit

/-- A line of a purchase order as the screen holds it. -/
structure OrderLine extends ShortLine where
  it : ItemKey

structure ScreenOrder where
  st : PoStatus
  lines : List OrderLine

def ScreenOrder.progress (o : ScreenOrder) : PurchaseOrder :=
  ⟨o.st, o.lines.map OrderLine.toShortLine⟩

structure ScreenTicket where
  st : TktStatus
  lines : List Line

/-- What the screen holds of the documents in question. -/
structure OnTheWay where
  prq : List Requisition
  po : List ScreenOrder
  tkt : List ScreenTicket

/-! ## On order -/

/-- An approved requisition line not yet claimed by a purchase order. -/
structure PoolLine where
  prq : String
  line : ℕ
  it : ItemKey
  asked : Qty
  pending : Qty

def procurementList (prq : List Requisition) : List PoolLine :=
  (prq.filter fun p => p.st.gives).flatMap fun p =>
    p.lines.zipIdx.flatMap fun l =>
      let pending := round3 ((l.1.appr - l.1.ordered : Qty) : ℚ)
      if 0 < pending then [⟨p.id, l.2, l.1.it, l.1.qty, pending⟩] else []

/-- Purchase orders that already hold a claim on procurement-list quantity. -/
def PoStatus.CLAIMED : List PoStatus := [.draft, .ordered, .partiallyReceived]

def OrderLine.owed (l : OrderLine) : Qty :=
  max 0 (l.qty - netReceived l.recv l.rejected)

def onOrder (s : OnTheWay) (it : ItemKey) : Qty :=
  let pending := (((procurementList s.prq).filter fun l =>
    decide (l.it = it)).map PoolLine.pending).sum
  let owed := ((s.po.filter fun o => decide (o.st ∈ PoStatus.CLAIMED)).map fun o =>
    ((o.lines.filter fun l => decide (l.it = it)).map OrderLine.owed).sum).sum
  round3 ((pending + owed : Qty) : ℚ)

/-- The lines of one document under their items, and then onto what the
documents before it came to. -/
def tallyOne {α : Type} (it : α → ItemKey) (f : α → Qty)
    (out : List (ItemKey × Qty)) (lines : List α) : List (ItemKey × Qty) :=
  (accumulate it (fun t l => t + f l) 0 lines).foldl
    (fun out e => upsert out e.1 (fun t => t + e.2) 0) out

def onOrderIndex (s : OnTheWay) : List (ItemKey × Qty) :=
  let pending := accumulate PoolLine.it (fun t l => t + l.pending) 0
    (procurementList s.prq)
  let undelivered := s.po.foldl (fun out o =>
    if o.st ∈ PoStatus.CLAIMED then tallyOne OrderLine.it OrderLine.owed out o.lines
    else out) []
  ((pending.map Prod.fst ++ undelivered.map Prod.fst).eraseDups).map fun it =>
    (it, round3 ((entryOr pending it 0 + entryOr undelivered it 0 : Qty) : ℚ))

/-! ## In transit -/

def inTransit (s : OnTheWay) (it : ItemKey) : Qty :=
  ((s.tkt.filter fun t => decide (t.st = .collected)).map fun t =>
    ((t.lines.filter fun l => decide (l.it = it)).map Line.qty).sum).sum

def inTransitIndex (s : OnTheWay) : List (ItemKey × Qty) :=
  s.tkt.foldl (fun out t =>
    if t.st = .collected then tallyOne Line.it Line.qty out t.lines else out) []

/-! ## What a requisition's lines have received -/

/-- The walk that keeps what landed back to the line that funded it. -/
def perLine (lines : List RequisitionLine) (po : List PurchaseOrder)
    (prqId : String) : List Qty :=
  (po.filter fun o => decide (o.st ≠ .cancelled)).foldl (fun out o =>
    o.lines.foldl (fun out l =>
      (l.src.zip l.got).foldl (fun out x =>
        if x.1.prq ≠ prqId ∨ out[x.1.line]? = none then out
        else out.modify x.1.line fun t => t + x.2) out) out)
    (lines.map fun _ => 0)

end Rch

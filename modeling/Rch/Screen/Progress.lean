import Rch.Domain.Requisition

/-!
# How far a requisition has got

The store keeper's screen shows, line by line, what was approved, what was
ordered and what has landed. What landed is worked out on the screen: each
order line's net receipt is laid over the claims that funded it, and the
requisition's own shares are added up.
-/

namespace Rch

open Kit

/-- A requisition as the screen holds it. -/
structure Requisition where
  id : String
  st : PrqStatus
  lines : List RequisitionLine

/-- A purchase order as the screen holds it: the part progress reads. -/
structure PurchaseOrder where
  st : PoStatus
  lines : List ShortLine

structure PrqProgressLine where
  it : ItemKey
  appr : Qty
  ordered : Qty
  received : Qty
deriving DecidableEq

structure PrqProgress where
  appr : Qty
  ordered : Qty
  received : Qty
  lines : List PrqProgressLine
  label : String

/-- What each claim of an order line got of what landed on it. -/
def ShortLine.got (l : ShortLine) : List Qty :=
  apportion (netReceived l.recv l.rejected) (l.src.map ClaimSrc.qty)

/-- What the claims of an order line that pass a test got between them. -/
def ShortLine.gotBy (l : ShortLine) (mine : ClaimSrc → Bool) : Qty :=
  ((l.src.zip l.got).map fun x => if mine x.1 then x.2 else 0).sum

/-- The same over every order that was not called off. -/
def gotBy (po : List PurchaseOrder) (mine : ClaimSrc → Bool) : Qty :=
  ((po.filter fun o => decide (o.st ≠ .cancelled)).map fun o =>
    (o.lines.map fun l => l.gotBy mine).sum).sum

def prqLabel (st : PrqStatus) (appr ordered received : Qty) : String :=
  match st with
  | .sent => "Awaiting approval"
  | .declined => "Declined"
  | .approved | .partiallyApproved =>
    if 0 < appr ∧ appr ≤ received then "Received"
    else if 0 < received then "Partly received"
    else if 0 < appr ∧ appr ≤ ordered then "Ordered"
    else if 0 < ordered then "Partly ordered"
    else "Awaiting order"

def prqProgress (prq : List Requisition) (po : List PurchaseOrder)
    (prqId : String) : PrqProgress :=
  match prq.find? fun p => decide (p.id = prqId) with
  | none => ⟨0, 0, 0, [], "Unknown"⟩
  | some p =>
    let appr := (p.lines.map RequisitionLine.appr).sum
    let ordered := (p.lines.map RequisitionLine.ordered).sum
    let received := gotBy po fun x => decide (x.prq = prqId)
    { appr, ordered, received
      lines := p.lines.mapIdx fun i l =>
        ⟨l.it, l.appr, l.ordered,
          gotBy po fun x => decide (x.prq = prqId ∧ x.line = i)⟩
      label := prqLabel p.st appr ordered received }

end Rch

import Rch.Domain.Claims
import Rch.Domain.Master
import Rch.Domain.Transitions

/-!
# Requisitions

What the central store wants bought. A decision caps each line at what was
asked and what the buyer typed, never at a shelf, and the status is read off
the lines it wrote. What is still to be ordered is derived: approved less
ordered.
-/

namespace Rch

open Kit

inductive PrqStatus
  | sent | approved | partiallyApproved | declined
deriving DecidableEq, Repr

def PrqStatus.word : PrqStatus → String
  | sent => "Sent"
  | approved => "Approved"
  | partiallyApproved => "Partially approved"
  | declined => "Declined"

def requisitionTransitions : TransitionTable PrqStatus
  | .sent => [.approved, .partiallyApproved, .declined]
  | .approved => []
  | .partiallyApproved => []
  | .declined => []

/-- One line of a requisition. -/
structure RequisitionLine where
  it : ItemKey
  qty : Qty
  appr : Qty
  ordered : Qty
  short : Option Qty
deriving DecidableEq

/-- Which decision a set of decided lines amounts to. -/
def prqStatus (lines : List RequisitionLine) : PrqStatus :=
  if lines.all fun l => decide (l.appr = 0) then .declined
  else if lines.all fun l => decide (l.appr = l.qty) then .approved
  else .partiallyApproved

def planPrqApproval (lines : List RequisitionLine) (appr : List ℚ) :
    List RequisitionLine × PrqStatus :=
  let out := lines.mapIdx fun i l =>
    let ok := round3 (max 0 (min (l.qty : ℚ) ((appr[i]?).getD 0)))
    { l with appr := ok, short := some (l.qty - ok) }
  (out, prqStatus out)

/-- Nothing is ordered off a requisition that approved nothing. -/
def PrqStatus.gives : PrqStatus → Bool
  | approved | partiallyApproved => true
  | sent | declined => false

def RequisitionLine.pending (l : RequisitionLine) (st : PrqStatus) : Qty :=
  if st.gives then l.appr - l.ordered else 0

end Rch

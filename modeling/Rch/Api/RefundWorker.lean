import Rch.Api.Qr

/-!
# The refund worker

What the gateway keeps of a refund, and the three things the worker makes of
it: the request it sends, the refund it finds there already, and what it writes
of an answer. A refund says which row it is for in its notes, under `rid`.
-/

namespace Rch

open Kit

def REFUND_BATCH : ℕ := 20

inductive GatewayRefundStatus
  | pending | processed | failed
deriving DecidableEq, Repr

abbrev Notes := List (String × String)

structure GatewayRefund where
  id : String
  paymentId : String
  amountPaise : ℤ
  status : GatewayRefundStatus
  receipt : Option String
  notes : Notes
deriving DecidableEq

def GatewayRefund.rid (g : GatewayRefund) : Option String :=
  g.notes.lookup "rid"

structure RefundRequest where
  paymentId : String
  amountPaise : ℤ
  receipt : String
  notes : Notes
deriving DecidableEq

/-- What the worker asks for. Nothing in it tells the gateway that the same was
asked before. -/
def refundRequest (id : String) (r : RefundRow) : RefundRequest where
  paymentId := r.paymentId
  amountPaise := paise r.amount
  receipt := id
  notes := [("rid", id), ("qr_order", r.qrOrderId)]

def RefundRequest.made (q : RefundRequest) (id : String)
    (status : GatewayRefundStatus) : GatewayRefund :=
  ⟨id, q.paymentId, q.amountPaise, status, some q.receipt, q.notes⟩

theorem refundRequest_rid (id g : String) (r : RefundRow)
    (status : GatewayRefundStatus) :
    ((refundRequest id r).made g status).rid = some id := rfl

def refundsOf (made : List GatewayRefund) (paymentId : String) :
    List GatewayRefund :=
  made.filter fun g => decide (g.paymentId = paymentId)

/-- A refund for this row that has not failed. -/
def GatewayRefund.pays (id : String) (g : GatewayRefund) : Bool :=
  decide (g.rid = some id) && decide (g.status ≠ .failed)

/-- What the worker finds before it sends. -/
def priorRefund (made : List GatewayRefund) (id : String) (r : RefundRow) :
    Option GatewayRefund :=
  (refundsOf made r.paymentId).find? (GatewayRefund.pays id)

/-- What a refund has come to, once it has. -/
def GatewayRefundStatus.outcome : GatewayRefundStatus → Option RefundOutcome
  | .pending => none
  | .processed => some .processed
  | .failed => some .failed

end Rch

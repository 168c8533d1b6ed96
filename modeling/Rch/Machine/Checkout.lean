import Rch.Api.Channels
import Rch.Machine.Service

/-!
# The server and the gateway

The gateway holds the payments. Each is made against one of its own orders, for
an amount in a currency, and is captured at some point or never; what it shows
of a payment carries those, and says captured only once it is. Between the
gateway and `settleCapture` stand the channels, whose reads are of an earlier
state than the one they settle in, and which may say the same thing any number
of times.

`settled` is not part of the system: it notes each capture that was settled, so
that what became of it can be said.
-/

namespace Rch

open Kit

/-- A payment as the gateway holds it. -/
structure Payment where
  /-- The gateway's own order it was made against. -/
  order : String
  amountPaise : ℤ
  currency : String
  captured : Bool
deriving DecidableEq

def Payment.amount (e : Payment) : Money :=
  round2 ((e.amountPaise : ℚ) / 100)

structure Checkout where
  db : Db
  gateway : Table String Payment
  /-- Order rows the channels have read. -/
  read : List (String × QrOrderRow)
  /-- Reports on their way to be settled. -/
  inFlight : List Report
  settled : List (String × GatewayPayment)

def shows (gateway : Table String Payment) (p : GatewayPayment) : Bool :=
  (gateway.get? p.id).any fun e =>
    decide (p.orderId = none ∨ p.orderId = some e.order) &&
      decide (p.amountPaise = e.amountPaise) &&
      decide (p.currency = e.currency) &&
      decide (p.status = .captured → e.captured = true)

/-- The payment is among those the gateway lists under the order's own. -/
def listedUnder (gateway : Table String Payment) (o : QrOrderRow)
    (p : GatewayPayment) : Bool :=
  (gateway.get? p.id).any fun e => decide (o.rzpOrderId = some e.order)

namespace Checkout

inductive Event
  /-- One of the server's own operations. -/
  | service (op : Op)
  /-- Somebody pays against one of the gateway's orders. -/
  | pay (id : String) (e : Payment)
  /-- The gateway captures a payment, on its own or because it was asked. -/
  | capture (id : String)
  /-- A channel reads an order. -/
  | read (id : String)
  | verify (id : String) (o : QrOrderRow) (body : VerifyQrPaymentBody)
      (p : GatewayPayment)
  | webhook (p : GatewayPayment)
  | reconcile (now : Instant) (id : String) (o : QrOrderRow)
      (p : GatewayPayment)
  /-- A report of an authorised payment comes back from the capture. -/
  | take (r : Report) (p : GatewayPayment)
  | settle (r : Report) (mint : Option String) (at_ : Instant)

/-- A capture is settled through a report, never out of thin air. -/
def isCapture : Op → Bool
  | .settleCapture .. => true
  | _ => false

def report (w : Checkout) (r : Report) : Checkout :=
  { w with inFlight := r :: w.inFlight }

def step (w : Checkout) : Event → Option Checkout
  | .service op =>
    if isCapture op then none
    else (op.run w.db).map fun db => { w with db }
  | .pay id e =>
    if e.captured then none
    else (w.gateway.insert? id e).map fun gateway => { w with gateway }
  | .capture id =>
    some { w with gateway := w.gateway.modify id fun e =>
      { e with captured := true } }
  | .read id =>
    (w.db.qrOrders.get? id).map fun o => { w with read := (id, o) :: w.read }
  | .verify id o body p =>
    if (id, o) ∈ w.read ∧ p.id = body.rzpPaymentId ∧ shows w.gateway p = true
    then (Rch.verify id o body p).toOption.map w.report
    else none
  | .webhook p =>
    if shows w.gateway p then (Rch.webhook w.db p).map w.report else none
  | .reconcile now id o p =>
    if (id, o) ∈ w.read ∧ shows w.gateway p = true ∧
        listedUnder w.gateway o p = true
    then (Rch.reconcile now id o p).map w.report
    else none
  | .take r p =>
    if r ∈ w.inFlight ∧ takes r.payment r.total = true ∧
        p.id = r.payment.id ∧ p.status ≠ .authorized ∧
        shows w.gateway p = true
    then some (w.report ⟨r.order, r.total, p⟩)
    else none
  | .settle r mint at_ =>
    if r ∈ w.inFlight ∧ r.payment.status = .captured then
      (settleCapture w.db r.order r.payment mint at_).toOption.map fun db =>
        { w with db, settled := (r.order, r.payment) :: w.settled }
    else none

end Checkout

/-- The server and the gateway, with nothing paid yet. -/
def checkout : Machine Checkout Checkout.Event where
  init w := ∃ rows, w = ⟨Db.fresh rows, Table.empty, [], [], []⟩
  step := Checkout.step

end Rch

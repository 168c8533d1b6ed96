import Rch.Api.Qr

/-!
# How a capture is heard of

Three channels report a payment: the phone's success handler, the gateway's
webhook and the reconcile pass. Each reads the order without a lock, decides
whether the payment is this order's, takes it where it is only authorised, and
hands what it has to `settleCapture`. Nothing is held between the read and the
settling, so a report is about an order as it was.
-/

namespace Rch

open Kit

/-- What a channel hands on: the order, what it came to, and the payment. -/
structure Report where
  order : String
  total : Money
  payment : GatewayPayment
deriving DecidableEq

/-- The phone's success handler. -/
structure VerifyQrPaymentBody where
  /-- The digest of the secret the phone gave. -/
  secretHash : String
  rzpOrderId : String
  rzpPaymentId : String
  /-- Whether the gateway's signature over the two ids matches. -/
  signed : Bool
deriving DecidableEq

def notForOrder (id : String) : String :=
  "This payment is not for order " ++ id ++ "."

/-- What the success handler asks of the order it read and of the payment the
gateway then showed it. -/
def verify (id : String) (o : QrOrderRow) (body : VerifyQrPaymentBody)
    (p : GatewayPayment) : Outcome Report := do
  guardOr (o.secretHash = body.secretHash) ⟨.notFound, ORDER_GONE⟩
  assertValid (o.rzpOrderId = some body.rzpOrderId) (notForOrder id)
  assertValid (body.signed = true)
    ("This payment could not be verified - if money left your account, it "
      ++ "will come back.")
  assertValid (p.orderId = o.rzpOrderId) (notForOrder id)
  assertRule (¬ (p.status = .authorized ∧ p.amountPaise ≠ paise o.total))
    "The payment does not match this order - it will be released back to you."
  pure ⟨id, o.total, p⟩

def orderByRzpOrder (db : Db) (rzpOrderId : String) :
    Option (String × QrOrderRow) :=
  db.qrOrders.rows.find? fun o => decide (o.2.rzpOrderId = some rzpOrderId)

def GatewayPayment.live (p : GatewayPayment) : Bool :=
  decide (p.status = .captured) || decide (p.status = .authorized)

/-- The webhook's payment, handed on where an order is behind it. -/
def webhook (db : Db) (p : GatewayPayment) : Option Report :=
  if p.live then
    (p.orderId.bind (orderByRzpOrder db)).map fun o => ⟨o.1, o.2.total, p⟩
  else none

def RECONCILE_MIN_AGE_MS : ℤ := 2 * 60000
def RECONCILE_MAX_AGE_MS : ℤ := 48 * 60 * 60000

/-- An order the reconcile pass asks the gateway about. -/
def toReconcile (now : Instant) (o : QrOrderRow) : Bool :=
  (decide (o.status = .awaitingPayment) || decide (o.status = .expired)) &&
    o.rzpOrderId.isSome &&
    decide (now - RECONCILE_MAX_AGE_MS ≤ o.createdAt) &&
    decide (o.createdAt ≤ now - RECONCILE_MIN_AGE_MS)

/-- One of the payments the gateway listed under the order's own. -/
def reconcile (now : Instant) (id : String) (o : QrOrderRow)
    (p : GatewayPayment) : Option Report :=
  if toReconcile now o && p.live then some ⟨id, o.total, p⟩ else none

end Rch

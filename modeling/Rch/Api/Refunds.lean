import Rch.Api.Db

/-!
# QR orders and refunds: the two moves

A QR order's row changes status in one place, and a refund's row is written
and moved in one place. A refund is queued inside the transaction that decided
it and sent to the gateway later; nothing here calls the gateway.
-/

namespace Rch

open Kit

/-! ## An order's move -/

/-- What a move settles besides the status. -/
structure OrderPatch where
  rzpPaymentId : Option String
  billNo : Option String
  paidAt : Option Instant

def OrderPatch.none : OrderPatch := ⟨.none, .none, .none⟩

def patchOrder (o : QrOrderRow) (next : QrOrderStatus) (at_ : Instant)
    (p : OrderPatch) : QrOrderRow :=
  { o with
    status := next
    updatedAt := at_
    rzpPaymentId := p.rzpPaymentId.orElse fun _ => o.rzpPaymentId
    billNo := p.billNo.orElse fun _ => o.billNo
    paidAt := p.paidAt.orElse fun _ => o.paidAt }

/-- No other order carries this payment or this bill. -/
def orderUnique (db : Db) (id : String) (o : QrOrderRow) : Prop :=
  ∀ x ∈ db.qrOrders.rows, x.1 ≠ id →
    (o.rzpPaymentId.isSome = true → x.2.rzpPaymentId ≠ o.rzpPaymentId) ∧
    (o.billNo.isSome = true → x.2.billNo ≠ o.billNo)

instance (db : Db) (id : String) (o : QrOrderRow) :
    Decidable (orderUnique db id o) := by
  unfold orderUnique
  infer_instance

/-- Move a locked order along its table, refusing any other move in words. -/
def moveQrOrder (db : Db) (id : String) (o : QrOrderRow) (next : QrOrderStatus)
    (at_ : Instant) (p : OrderPatch) : Outcome Db := do
  assertTransition qrOrderTransitions QrOrderStatus.word o.status next id
  let row := patchOrder o next at_ p
  guardOr (orderUnique db id row) ⟨.internal, "qr_orders_rzp_payment_uq"⟩
  pure { db with qrOrders := db.qrOrders.modify id fun _ => row }

/-! ## Queueing a refund -/

structure RefundDraft where
  qrOrderId : String
  paymentId : String
  amount : Money
  reason : RefundReason
  billNo : Option String
  at_ : Instant

def refundsOfOrder (db : Db) (qrOrderId : String) :
    List (String × RefundRow) :=
  db.refunds.rows.filter fun r => decide (r.2.qrOrderId = qrOrderId)

def newRefund (d : RefundDraft) : RefundRow where
  qrOrderId := d.qrOrderId
  billNo := d.billNo
  paymentId := d.paymentId
  amount := d.amount
  reason := d.reason
  status := .pending
  attempts := 0
  nextAttemptAt := d.at_
  lastError := none
  rzpRefundId := none
  createdAt := d.at_
  updatedAt := d.at_
  processedAt := none

/-- The order's own id and one past the refunds it has. -/
def refundId (db : Db) (qrOrderId : String) : String :=
  qrOrderId ++ "-R" ++ toString ((refundsOfOrder db qrOrderId).length + 1)

/-- Queue a refund against a payment. The caller holds the order. -/
def queueRefund (db : Db) (d : RefundDraft) : Outcome Db := do
  guardOr (0 < d.amount) ⟨.internal, "payment_refunds_amount_ck"⟩
  let refunds ← orInternal
    (db.refunds.insert? (refundId db d.qrOrderId) (newRefund d))
    "payment_refunds_pkey"
  pure { db with refunds }

/-! ## A refund's moves -/

structure RefundPatch where
  rzpRefundId : Option String
  error : Option String
  at_ : Instant

/-- What a move writes onto the row. A retry forgets the gateway refund that
failed and starts the attempts again. -/
def patchRefund (r : RefundRow) (next : RefundStatus) (p : RefundPatch) :
    RefundRow :=
  let r := { r with
    status := next
    updatedAt := p.at_
    rzpRefundId := p.rzpRefundId.orElse fun _ => r.rzpRefundId }
  match next with
  | .processed => { r with processedAt := some p.at_ }
  | .failed => { r with lastError := p.error.orElse fun _ => r.lastError }
  | .pending =>
    { r with
      attempts := 0, nextAttemptAt := p.at_, lastError := none,
      rzpRefundId := none }
  | .sent => r

/-- No other refund carries this gateway refund. -/
def refundUnique (db : Db) (id : String) (r : RefundRow) : Prop :=
  ∀ x ∈ db.refunds.rows, x.1 ≠ id → r.rzpRefundId.isSome = true →
    x.2.rzpRefundId ≠ r.rzpRefundId

instance (db : Db) (id : String) (r : RefundRow) :
    Decidable (refundUnique db id r) := by
  unfold refundUnique
  infer_instance

/-- Move a refund along its table, refusing any other move in words. -/
def moveRefund (db : Db) (id : String) (next : RefundStatus)
    (p : RefundPatch) : Outcome Db := do
  let r ← orNotFound (db.refunds.get? id) ("There is no refund " ++ id ++ ".")
  assertTransition refundTransitions RefundStatus.word r.status next
    ("Refund " ++ id)
  let row := patchRefund r next p
  guardOr (refundUnique db id row) ⟨.internal, "payment_refunds_rzp_refund_uq"⟩
  pure { db with refunds := db.refunds.modify id fun _ => row }

/-- How long the worker waits after each failed send, in milliseconds. -/
def REFUND_BACKOFF_MS : List ℤ :=
  [60000, 5 * 60000, 15 * 60000, 60 * 60000, 6 * 60 * 60000]

def REFUND_MAX_ATTEMPTS : ℕ := REFUND_BACKOFF_MS.length + 1

def backoffAfter (attempts : ℕ) : ℤ :=
  REFUND_BACKOFF_MS.getD (min attempts REFUND_BACKOFF_MS.length - 1) 0

def refundDue (now : Instant) (r : RefundRow) : Bool :=
  decide (r.status = .pending) && decide (r.nextAttemptAt ≤ now)

/-- What a claim writes: the attempt counted, the next one put off. -/
def claimRefund (now : Instant) (r : RefundRow) : RefundRow :=
  { r with
    attempts := r.attempts + 1
    nextAttemptAt := now + backoffAfter (r.attempts + 1)
    updatedAt := now }

/-- The worker's claim. `ids` are the rows it could lock, all of them due. -/
def claimDueRefunds (db : Db) (now : Instant) (ids : List String) :
    Option Db :=
  if ids.Nodup ∧ ∀ id ∈ ids, (db.refunds.get? id).any (refundDue now) = true
  then some { db with refunds := db.refunds.update fun id r =>
    if id ∈ ids then claimRefund now r else r }
  else none

structure SendFailure where
  error : String
  final : Bool
  counted : Bool
  at_ : Instant

/-- A send that did not go through: the answer kept, and on the last attempt
or a refusal the gateway will repeat, the refund failed. -/
def deferRefund (db : Db) (id : String) (e : SendFailure) : Outcome Db := do
  let r ← orNotFound (db.refunds.get? id) ("There is no refund " ++ id ++ ".")
  let attempts := if e.counted then r.attempts else r.attempts + 1
  if e.final ∨ REFUND_MAX_ATTEMPTS ≤ attempts then
    assertTransition refundTransitions RefundStatus.word r.status .failed
      ("Refund " ++ id)
    pure { db with refunds := db.refunds.modify id fun r =>
      { r with
        status := .failed, attempts, lastError := some e.error,
        updatedAt := e.at_ } }
  else
    pure { db with refunds := db.refunds.modify id fun r =>
      { r with
        attempts, lastError := some e.error, updatedAt := e.at_,
        nextAttemptAt := if e.counted then r.nextAttemptAt
          else e.at_ + backoffAfter attempts } }

end Rch

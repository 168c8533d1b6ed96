import Rch.Api.Pos
import Rch.Domain.Text

/-!
# QR orders

A customer's order from a printed code to a bill at the outlet. An order is
quoted, numbered and stored before the gateway is asked for anything; a
captured payment is settled against it by one function, whichever of the
phone, the webhook and the reconcile pass reports it first.
-/

namespace Rch

open Kit

/-- The QR Orders account, whose bills the captures are. -/
def SYSTEM_QR : String := "sys-qr"

def CODE_GONE : String :=
  "This QR code is no longer in use - please order at the counter."

def ORDER_GONE : String := "There is no such order."

/-! ## Placing an order -/

/-- An order's line as the body's schema admits it. -/
structure QrLineInput where
  it : ItemKey
  qty : ℕ
  keyed : 1 ≤ codePoints it ∧ codePoints it ≤ 64
  positive : 0 < qty
  capped : qty ≤ QR_MAX_QTY

structure CreateQrOrderBody where
  name : String
  /-- Ten digits, normalised before the transaction. -/
  phone : String
  detail : Option String
  lines : List QrLineInput
  named : 1 ≤ codePoints name ∧ codePoints name ≤ 80
  phoneMax : codePoints phone ≤ 20
  detailMax : ∀ d ∈ detail, codePoints d ≤ 80
  nonempty : lines ≠ []
  capped : lines.length ≤ QR_MAX_LINES

/-- What the deployment sets. -/
structure QrConfig where
  maxRupees : Money
  ttlMin : ℕ
  pendingPerIp : ℕ

/-- What is minted or known outside the transaction: the digests of the secret
and of the nonce, and the address asking. -/
structure PlaceMeta where
  secretHash : String
  nonce : String
  ip : String

/-- The window the per-address cap counts unpaid orders over. -/
def IP_WINDOW_MS : ℤ := 30 * 60000

def pendingForPhone (db : Db) (phone : String) (now : Instant) : ℕ :=
  (db.qrOrders.rows.filter fun o =>
    decide (o.2.customerPhone = phone) &&
      decide (o.2.status = .awaitingPayment) &&
      decide (now < o.2.expiresAt)).length

/-- Unpaid orders placed from an address since an instant. -/
def pendingForIp (db : Db) (ip : String) (since : Instant) : ℕ :=
  (db.qrOrders.rows.filter fun o =>
    decide (o.2.ip = ip) && decide (o.2.status = .awaitingPayment) &&
      decide (since ≤ o.2.createdAt)).length

def quotedOrder (code : QrCodeRow) (body : CreateQrOrderBody) (meta_ : PlaceMeta)
    (plan : BillPlan) (ttlMin : ℕ) (now : Instant) : QrOrderRow where
  loc := code.loc
  qrCodeId := code.id
  label := code.label
  mode := code.mode
  spot := if code.mode = .deliver then body.detail.getD "" else ""
  status := .awaitingPayment
  customerName := body.name
  customerPhone := body.phone
  total := round2 plan.tot
  tax := round2 plan.tax
  discount := round2 plan.disc
  secretHash := meta_.secretHash
  nonce := meta_.nonce
  ip := meta_.ip
  rzpOrderId := none
  rzpPaymentId := none
  billNo := none
  expiresAt := now + (ttlMin : ℤ) * 60000
  paidAt := none
  createdAt := now
  updatedAt := now
  lines := plan.lines.map fun l => ⟨l.it, l.qty, l.rate⟩

/-- The transaction that quotes, numbers and stores an order. -/
def placeOrder (db : Db) (config : QrConfig) (token : String)
    (body : CreateQrOrderBody) (meta_ : PlaceMeta) (now : Instant) :
    Outcome Db := do
  let code ← orNotFound ((db.rows.qrCodes token).filter QrCodeRow.active)
    CODE_GONE
  let loc ← lockLocation db code.loc
  assertRule (loc.active = true)
    (loc.n ++ " is closed - please order at the counter.")
  let hours := qrOpenAt (db.rows.orderHours code.loc) now
  assertRule (hours.open_ = true) (hoursRefusal loc.n hours)
  assertRule (db.rows.qrPaused code.loc = false) (pausedRefusal loc.n)
  let pending := pendingForPhone db body.phone now
  assertRule (pending < QR_PENDING_PER_PHONE)
    ("You already have " ++ toString pending ++ " unpaid orders - pay for one, "
      ++ "or let it lapse, before placing another.")
  guardOr (pendingForIp db meta_.ip (now - IP_WINDOW_MS) < config.pendingPerIp)
    ⟨.rateLimited, "Too many unpaid orders from this connection - pay for one, "
      ++ "or try again in a few minutes."⟩
  let s := sellableAt db code.loc
  let cart := cartOf (body.lines.map fun l => ⟨l.it, l.qty⟩)
  assertEach cart (fun c => (c.qty : ℚ) ≤ QR_MAX_QTY) fun c =>
    "One order can carry at most " ++ toString QR_MAX_QTY ++ " of "
      ++ s.master.itemName c.it ++ "."
  assertSellable s cart
  let terms := termsFor db .customer none
  let plan := planBill s.master s.prices code.loc cart terms.pct
  let total := round2 plan.tot
  assertRule (0 < total) "There is nothing to pay for on this order."
  assertRule (⟨100⟩ ≤ total)
    ("An online payment has to be at least " ++ inr ⟨100⟩ ++ " - this order is "
      ++ inr total ++ ". Add an item, or order at the counter.")
  assertRule (total ≤ config.maxRupees)
    ("One QR order can come to at most " ++ inr config.maxRupees
      ++ " - this one is " ++ inr total
      ++ ". Take a few items off, or order at the counter.")
  let (db, id) := allocateId db .qrOrder now
  guardOr (∀ o ∈ db.qrOrders.rows, o.2.nonce ≠ meta_.nonce)
    ⟨.internal, "qr_orders_nonce_uq"⟩
  let qrOrders ← orInternal (db.qrOrders.insert? id
    (quotedOrder code body meta_ plan config.ttlMin now)) "qr_orders_pkey"
  pure { db with qrOrders }

/-- The gateway's order, stored once: a second request that created one too
loses. -/
def setRzpOrder (db : Db) (id rzpOrderId : String) : Outcome Db :=
  if (db.qrOrders.get? id).any fun o => o.rzpOrderId.isNone then do
    guardOr (∀ o ∈ db.qrOrders.rows, o.2.rzpOrderId ≠ some rzpOrderId)
      ⟨.internal, "qr_orders_rzp_order_uq"⟩
    pure { db with qrOrders := db.qrOrders.modify id fun o =>
      { o with rzpOrderId := some rzpOrderId } }
  else pure db

/-- The gateway refused to open a checkout at all: the order lapses at
once. -/
def refuseCheckout (db : Db) (id : String) (at_ : Instant) : Outcome Db :=
  match db.qrOrders.get? id with
  | none => pure db
  | some o =>
    if o.status = .awaitingPayment then
      moveQrOrder db id o .expired at_ .none
    else pure db

/-! ## Settling a capture -/

inductive PaymentStatus
  | created | authorized | captured | refunded | failed
deriving DecidableEq, Repr

/-- A payment as the gateway reports it. -/
structure GatewayPayment where
  id : String
  orderId : Option String
  amountPaise : ℤ
  currency : String
  status : PaymentStatus
deriving DecidableEq, Repr

def GatewayPayment.amount (p : GatewayPayment) : Money :=
  round2 ((p.amountPaise : ℚ) / 100)

/-- A payment the order was not asked for. -/
def mismatched (o : QrOrderRow) (p : GatewayPayment) : Bool :=
  decide (p.currency ≠ "INR") || decide (p.amountPaise ≠ paise o.total) ||
    (p.orderId.isSome && decide (p.orderId ≠ o.rzpOrderId))

def refundOfPayment (db : Db) (orderId paymentId : String) :
    Option (String × RefundRow) :=
  db.refunds.rows.find? fun r =>
    decide (r.2.qrOrderId = orderId ∧ r.2.paymentId = paymentId)

def saleOfOrder (id : String) (o : QrOrderRow) : SaleInput where
  loc := o.loc
  operatorId := SYSTEM_QR
  lines := o.lines.map fun l => ⟨l.it, l.qty⟩
  tender := .online
  payer := none
  customerName := some o.customerName
  customerPhone := some o.customerPhone
  source := .qr
  qrOrderId := some id

/-- The first quoted line the bill prices differently. -/
def movedLine (o : QrOrderRow) (bill : BillRow) : Option QrLine :=
  o.lines.find? fun l => decide
    ((bill.lines.find? fun b => decide (b.it = l.it)).map BillLine.rate ≠
      some l.rate)

/-- The sale a capture makes, inside its savepoint: refused if a price moved
since the quote. -/
def captureSale (db : Db) (id : String) (o : QrOrderRow)
    (mint : Option String) (at_ : Instant) :
    Outcome (Db × String × BillRow) := do
  let (next, no, bill) ← postSale db (saleOfOrder id o) mint at_
  let moved := movedLine o bill
  assertRule (moved = none ∧ bill.total = o.total)
    ("the price of " ++ ((moved.bind fun l => db.rows.items l.it).map
      Item.n).getD "the order" ++ " changed after it was placed")
  pure (next, no, bill)

/-- A refusal that is not a reason to refund: a register closing this instant,
or a failure of the server's own. -/
def retryLater (e : Refusal) : Bool :=
  decide (e.code = .registerClosing) || decide (500 ≤ e.code.status)

/-- What the sale came to, or why there is none. A refused sale rolls back to
its savepoint; the capture goes on without it. -/
def trySale (db : Db) (id : String) (o : QrOrderRow) (p : GatewayPayment)
    (mint : Option String) (at_ : Instant) :
    Outcome (Option (Db × String)) :=
  if mismatched o p then pure none
  else
    match captureSale db id o mint at_ with
    | .ok (next, no, _) => pure (some (next, no))
    | .error e => if retryLater e then .error e else pure none

/-- Settle a captured payment against an order. The same payment again changes
nothing; a second payment is refunded as a duplicate; otherwise the order is
billed, or refunded whole. -/
def settleCapture (db : Db) (orderId : String) (p : GatewayPayment)
    (mint : Option String) (at_ : Instant) : Outcome Db := do
  let o ← orNotFound (db.qrOrders.get? orderId) ORDER_GONE
  if o.rzpPaymentId = some p.id then pure db
  else if o.rzpPaymentId.isSome = true ∨
      (o.status ≠ .awaitingPayment ∧ o.status ≠ .expired) then
    match refundOfPayment db orderId p.id with
    | some _ => pure db
    | none =>
      queueRefund db
        { qrOrderId := orderId, paymentId := p.id, amount := p.amount,
          reason := .duplicate, billNo := none, at_ }
  else
    let sale ← trySale db orderId o p mint at_
    match sale with
    | some (db, no) =>
      moveQrOrder db orderId o .paid at_ ⟨some p.id, some no, some at_⟩
    | none => do
      let db ← moveQrOrder db orderId o .refunded at_ ⟨some p.id, none, none⟩
      queueRefund db
        { qrOrderId := orderId, paymentId := p.id, amount := p.amount,
          reason := .unfulfillable, billNo := none, at_ }

/-- Whether a payment that is only authorised is taken: when it is for exactly
the order's amount. -/
def takes (p : GatewayPayment) (orderTotal : Money) : Bool :=
  decide (p.status = .authorized) && decide (p.amountPaise = paise orderTotal)

/-! ## The counter and the worker -/

/-- The counter's next step: exactly the one the order's mode names. -/
def setQrStatus (db : Db) (claims : Claims) (id : String)
    (next : QrOrderStatus) (at_ : Instant) : Outcome Db := do
  let o ← orNotFound (db.qrOrders.get? id)
    ("There is no QR order " ++ id ++ ".")
  if ¬ claims.wide then
    requireLocOf claims o.loc "your own counter's QR orders"
  assertRule (next ≠ .voided)
    ("A QR order is voided with its bill - void " ++ o.billNo.getD "its bill"
      ++ " instead.")
  assertRule (nextQrStep o.mode o.status = some next)
    (match nextQrStep o.mode o.status with
      | some step => id ++ " is " ++ o.status.word.toLower
          ++ " - its next step is " ++ step.word.toLower ++ "."
      | none => id ++ " is " ++ o.status.word.toLower
          ++ " and has no next step.")
  moveQrOrder db id o next at_ .none

/-- Unpaid orders past their window lapse. `ids` are the rows the pass could
lock, each of them due. -/
def expireOrders (db : Db) (now : Instant) : List String → Outcome Db
  | [] => pure db
  | id :: rest => do
    let o ← orNotFound (db.qrOrders.get? id) ORDER_GONE
    guardOr (o.status = .awaitingPayment ∧ o.expiresAt ≤ now)
      ⟨.internal, "not due"⟩
    let db ← moveQrOrder db id o .expired now .none
    expireOrders db now rest

inductive RefundOutcome
  | processed | failed
deriving DecidableEq, Repr

/-- The rows a report names: by the gateway's refund id, or by the note the
worker wrote into it. The first is the one taken. -/
def refundForGateway (db : Db) (rzpRefundId : String) (rid : Option String) :
    Option (String × RefundRow) :=
  db.refunds.rows.find? fun r =>
    decide (r.2.rzpRefundId = some rzpRefundId) || decide (rid = some r.1)

def gatewayFailed : String :=
  "The payment gateway reported that the refund failed"

def settleRefund (db : Db) (rzpRefundId : String) (rid : Option String)
    (outcome : RefundOutcome) (at_ : Instant) : Outcome Db :=
  match refundForGateway db rzpRefundId rid with
  | none => pure db
  | some (id, r) =>
    if r.status ≠ .pending ∧ r.status ≠ .sent then pure db
    else if r.rzpRefundId.isSome = true ∧ r.rzpRefundId ≠ some rzpRefundId then
      pure db
    else
      match outcome with
      | .processed => do
        let db ← if r.status = .pending then
            moveRefund db id .sent ⟨some rzpRefundId, none, at_⟩
          else pure db
        moveRefund db id .processed ⟨some rzpRefundId, none, at_⟩
      | .failed =>
        moveRefund db id .failed ⟨some rzpRefundId, some gatewayFailed, at_⟩

/-- What the worker writes once a send has an answer, unless a report has
moved the row meanwhile. -/
def recordSend (db : Db) (id rzpRefundId : String)
    (outcome : Option RefundOutcome) (at_ : Instant) : Outcome Db :=
  match db.refunds.get? id with
  | none => pure db
  | some r =>
    if r.status ≠ .pending then pure db
    else do
      let db ← moveRefund db id .sent ⟨some rzpRefundId, none, at_⟩
      match outcome with
      | none => pure db
      | some .processed =>
        moveRefund db id .processed ⟨some rzpRefundId, none, at_⟩
      | some .failed =>
        moveRefund db id .failed ⟨some rzpRefundId, some gatewayFailed, at_⟩

/-- What the worker writes when a send had no answer. -/
def recordFailure (db : Db) (id : String) (e : SendFailure) : Outcome Db :=
  match db.refunds.get? id with
  | none => pure db
  | some r => if r.status ≠ .pending then pure db else deferRefund db id e

/-- A failed refund back in the queue, attempts from nothing, due now. -/
def retryRefund (db : Db) (id : String) (at_ : Instant) : Outcome Db := do
  let r ← orNotFound (db.refunds.get? id) ("There is no refund " ++ id ++ ".")
  assertRule (r.status = .failed)
    ("Refund " ++ id ++ " is " ++ r.status.word.toLower
      ++ " - only a failed refund can be retried")
  moveRefund db id .pending ⟨none, none, at_⟩

end Rch

import Rch.Api.Refunds
import Rch.Api.Sale

/-!
# The till: pay and void

A void takes a mis-keyed bill back on the day it was taken: the bill stays as
it was printed, each move of the sale is reversed, and the sums that count
money skip it. A QR bill's void moves its order too and queues the money back.
-/

namespace Rch

open Kit

/-- A till's sale, as the body's schema admits it: positive lines, and never
the gateway's own tender. -/
structure PayBody where
  loc : LocKey
  tender : Tender
  payer : Option PayerRef
  lines : List LineInput
  customerName : Option String
  customerPhone : Option String
  till : tender ≠ .online
  positive : ∀ l ∈ lines, 0 < l.qty

def PayBody.input (body : PayBody) (operatorId : String) : SaleInput where
  loc := body.loc
  operatorId := operatorId
  lines := body.lines
  tender := body.tender
  payer := body.payer
  customerName := body.customerName
  customerPhone := body.customerPhone
  source := .till
  qrOrderId := none

def pay (db : Db) (claims : Claims) (body : PayBody) (mint : Option String)
    (at_ : Instant) : Outcome Db := do
  let (db, _) ← postSale db (body.input claims.sub) mint at_
  pure db

/-! ## The void -/

/-- A settlement nobody voided that has closed part of this bill. -/
def liveSettlementOf (db : Db) (no : String) : Option String :=
  (db.settlementLines.rows.find? fun l =>
    decide (l.1.2 = no) &&
      (db.settlements.get? l.1.1).any fun s => s.voided.isNone).map fun l =>
        l.1.1

def saleMovesOf (db : Db) (no : String) : List MoveRow :=
  db.stock.moves.filter fun m =>
    decide (m.refType = "bill" ∧ m.refId = no ∧ m.kind = .sale)

/-- Each reversal at its original's own place and item, naming it. -/
def reversalsOf (moves : List MoveRow) (no by_ : String) (at_ : Instant) :
    List Move :=
  moves.map fun m =>
    ⟨m.loc, m.it, -(m.qty : ℚ), .reversal, "bill", no, some by_, at_,
      some m.id⟩

def orderOfBill (db : Db) (bill : BillRow) : Option (String × QrOrderRow) :=
  if bill.source = .qr then
    bill.qrOrderId.bind fun o => (db.qrOrders.get? o).map fun row => (o, row)
  else none

/-- The bill's order goes with it, and the whole bill is queued to go back to
whoever paid online. -/
def refundOrder (db : Db) (order : Option (String × QrOrderRow)) (no : String)
    (total : Money) (at_ : Instant) : Outcome Db :=
  match order with
  | none => pure db
  | some (oid, o) =>
    match o.rzpPaymentId with
    | none => pure db
    | some paymentId => do
      let db ← moveQrOrder db oid o .voided at_ .none
      queueRefund db
        { qrOrderId := oid, paymentId, amount := total, reason := .void,
          billNo := some no, at_ }

def voidBill (db : Db) (claims : Claims) (no reason : String) (at_ : Instant) :
    Outcome Db := do
  let bill ← orNotFound (db.bills.get? no) ("There is no bill " ++ no ++ ".")
  let order := orderOfBill db bill
  guardOr (bill.operatorId ≠ claims.sub)
    ⟨.forbidden, "You can't void a bill you took yourself - ask someone else "
      ++ "who holds Void a bill."⟩
  assertRule (trim reason ≠ "") "Give a reason for voiding this bill"
  assertRule (bill.voided = none) (no ++ " has already been voided")
  assertRule (istDate bill.at_ = istDate at_)
    (no ++ " was taken on " ++ dmy bill.at_ ++ " - a bill can only be voided "
      ++ "on the day it was billed; write the stock back on with an adjustment "
      ++ "instead")
  let paid := liveSettlementOf db no
  assertRule (paid = none)
    (no ++ " has been settled by " ++ paid.getD ""
      ++ " - void that settlement first, then this bill")
  let outlet ← lockLocation db bill.loc
  assertOpen outlet (some "reopen it before voiding its bills")
  let shut := bill.sessionId.bind db.sessions.get?
  assertRule ((shut.bind SessionRow.closedAt) = none)
    (no ++ " was closed off on " ++ (shut.bind SessionRow.zNo).getD "null"
      ++ " and can no longer be voided.")
  let reversals := reversalsOf (saleMovesOf db no) no claims.sub at_
  let stock := postMoves db.stock reversals
  let bills := db.bills.modify no fun b =>
    { b with voided := some ⟨at_, claims.sub, trim reason⟩ }
  refundOrder { db with stock, bills } order no bill.total at_

end Rch

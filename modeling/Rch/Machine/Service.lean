import Rch.Api.Adjustments
import Rch.Api.Grn
import Rch.Api.Qr
import Rch.Api.Receivables
import Rch.Api.ShopAsks
import Rch.Kit.Machine

/-!
# The server as a machine

One operation is one transaction of one service, with any arguments its body's
schema admits. Every transaction takes a row lock on the document it decides
and on each balance it moves before it reads them, so transactions that touch
the same rows run one after the other, and a run of the server is a run of
this machine.

What the modelled services only read is left open: the screens that edit the
master data, the buying desk and the register's close may leave any rows at all
behind them between two operations.
-/

namespace Rch

open Kit

inductive Op
  -- tickets
  | handover (claims : Claims) (id : String) (body : HandoverBody)
      (at_ : Instant)
  | receive (claims : Claims) (id : String) (at_ : Instant)
  | cancelTicket (claims : Claims) (id reason : String) (at_ : Instant)
  | transfer (claims : Claims) (body : TransferBody) (draw : OtpDraw)
      (at_ : Instant)
  -- stock requests
  | createRequest (claims : Claims) (body : CreateRequestBody) (at_ : Instant)
  | cancelRequest (claims : Claims) (id : String)
  | approveRequest (claims : Claims) (id : String) (appr : List ℚ)
      (note : String)
  | rejectRequest (claims : Claims) (id note : String)
  | redirectRequest (claims : Claims) (id : String) (source : LocKey)
      (draw : OtpDraw) (at_ : Instant)
  | issueRequest (claims : Claims) (id : String) (draw : OtpDraw)
      (at_ : Instant)
  -- the kitchen
  | raiseOrder (claims : Claims) (body : CreateProdOrderBody) (at_ : Instant)
  | dispatchOrder (claims : Claims) (id : String) (draw : OtpDraw)
      (at_ : Instant)
  | setOrderStatus (id : String) (st : PordStatus)
  | makeBatch (claims : Claims) (body : MakeBatchBody) (at_ : Instant)
  | distribute (claims : Claims) (body : DistributeBody) (draw : OtpDraw)
      (at_ : Instant)
  -- shop asks
  | askShop (claims : Claims) (body : ShopAskBody) (at_ : Instant)
  | answerShopAsk (claims : Claims) (id : String) (grant : ℚ) (draw : OtpDraw)
      (at_ : Instant)
  | declineShopAsk (claims : Claims) (id reason : String)
  -- corrections, deliveries and opening stock
  | createAdjustment (claims : Claims) (body : CreateAdjustmentBody)
      (at_ : Instant)
  | createAdjustmentRequest (claims : Claims)
      (body : CreateAdjustmentRequestBody) (at_ : Instant)
  | cancelAdjustmentRequest (claims : Claims) (id : String)
  | approveAdjustmentRequest (claims : Claims) (id : String) (at_ : Instant)
  | rejectAdjustmentRequest (claims : Claims) (id note : String)
  | receivePo (claims : Claims) (id : String) (body : ReceivePoBody)
      (at_ : Instant)
  | openStock (claims : Claims) (atKitchen : Bool) (key : ItemKey)
      (opening : ℚ) (at_ : Instant)
  -- the till and the accounts
  | pay (claims : Claims) (body : PayBody) (mint : Option String)
      (at_ : Instant)
  | voidBill (claims : Claims) (no reason : String) (at_ : Instant)
  | recordSettlement (claims : Claims) (body : RecordSettlementBody)
      (at_ : Instant)
  | voidSettlement (claims : Claims) (id reason : String) (at_ : Instant)
  -- QR orders and refunds
  | placeOrder (config : QrConfig) (token : String) (body : CreateQrOrderBody)
      (meta_ : PlaceMeta) (now : Instant)
  | setRzpOrder (id rzpOrderId : String)
  | refuseCheckout (id : String) (at_ : Instant)
  | settleCapture (orderId : String) (p : GatewayPayment)
      (mint : Option String) (at_ : Instant)
  | setQrStatus (claims : Claims) (id : String) (next : QrOrderStatus)
      (at_ : Instant)
  | expireOrders (now : Instant) (ids : List String)
  | claimRefunds (now : Instant) (ids : List String)
  | recordSend (id rzpRefundId : String) (outcome : Option RefundOutcome)
      (at_ : Instant)
  | recordFailure (id : String) (e : SendFailure)
  | settleRefund (rzpRefundId : String) (rid : Option String)
      (outcome : RefundOutcome) (at_ : Instant)
  | retryRefund (id : String) (at_ : Instant)
  -- the operator's rebuild, and the writers left open
  | rebuild
  | editMaster (rows : MasterRows)
  | editPurchaseOrders (orders : Table String PurchaseOrderRow)
  | editSessions (sessions : Table String SessionRow)

def Op.run (db : Db) : Op → Option Db
  | .handover claims id body at_ =>
      (Prod.fst <$> Rch.handover db claims id body at_).toOption
  | .receive claims id at_ => (Rch.receive db claims id at_).toOption
  | .cancelTicket claims id reason at_ =>
      (Rch.cancelTicket db claims id reason at_).toOption
  | .transfer claims body draw at_ =>
      (Rch.transfer db claims body draw at_).toOption
  | .createRequest claims body at_ =>
      (Rch.createRequest db claims body at_).toOption
  | .cancelRequest claims id => (Rch.cancelRequest db claims id).toOption
  | .approveRequest claims id appr note =>
      (Rch.approveRequest db claims id appr note).toOption
  | .rejectRequest claims id note =>
      (Rch.rejectRequest db claims id note).toOption
  | .redirectRequest claims id source draw at_ =>
      (Rch.redirectRequest db claims id source draw at_).toOption
  | .issueRequest claims id draw at_ =>
      (Rch.issueRequest db claims id draw at_).toOption
  | .raiseOrder claims body at_ => (Rch.raiseOrder db claims body at_).toOption
  | .dispatchOrder claims id draw at_ =>
      (Rch.dispatchOrder db claims id draw at_).toOption
  | .setOrderStatus id st => (Rch.setOrderStatus db id st).toOption
  | .makeBatch claims body at_ => (Rch.makeBatch db claims body at_).toOption
  | .distribute claims body draw at_ =>
      (Rch.distribute db claims body draw at_).toOption
  | .askShop claims body at_ => (Rch.askShop db claims body at_).toOption
  | .answerShopAsk claims id grant draw at_ =>
      (Rch.answerShopAsk db claims id grant draw at_).toOption
  | .declineShopAsk claims id reason =>
      (Rch.declineShopAsk db claims id reason).toOption
  | .createAdjustment claims body at_ =>
      (Rch.createAdjustment db claims body at_).toOption
  | .createAdjustmentRequest claims body at_ =>
      (Rch.createAdjustmentRequest db claims body at_).toOption
  | .cancelAdjustmentRequest claims id =>
      (Rch.cancelAdjustmentRequest db claims id).toOption
  | .approveAdjustmentRequest claims id at_ =>
      (Rch.approveAdjustmentRequest db claims id at_).toOption
  | .rejectAdjustmentRequest claims id note =>
      (Rch.rejectAdjustmentRequest db claims id note).toOption
  | .receivePo claims id body at_ =>
      (Rch.receivePo db claims id body at_).toOption
  | .openStock claims atKitchen key opening at_ =>
      (Rch.openStock db claims atKitchen key opening at_).toOption
  | .pay claims body mint at_ => (Rch.pay db claims body mint at_).toOption
  | .voidBill claims no reason at_ =>
      (Rch.voidBill db claims no reason at_).toOption
  | .recordSettlement claims body at_ =>
      (Rch.recordSettlement db claims body at_).toOption
  | .voidSettlement claims id reason at_ =>
      (Rch.voidSettlement db claims id reason at_).toOption
  | .placeOrder config token body meta_ now =>
      (Rch.placeOrder db config token body meta_ now).toOption
  | .setRzpOrder id rzpOrderId => (Rch.setRzpOrder db id rzpOrderId).toOption
  | .refuseCheckout id at_ => (Rch.refuseCheckout db id at_).toOption
  | .settleCapture orderId p mint at_ =>
      (Rch.settleCapture db orderId p mint at_).toOption
  | .setQrStatus claims id next at_ =>
      (Rch.setQrStatus db claims id next at_).toOption
  | .expireOrders now ids => (Rch.expireOrders db now ids).toOption
  | .claimRefunds now ids => claimDueRefunds db now ids
  | .recordSend id rzpRefundId outcome at_ =>
      (Rch.recordSend db id rzpRefundId outcome at_).toOption
  | .recordFailure id e => (Rch.recordFailure db id e).toOption
  | .settleRefund rzpRefundId rid outcome at_ =>
      (Rch.settleRefund db rzpRefundId rid outcome at_).toOption
  | .retryRefund id at_ => (Rch.retryRefund db id at_).toOption
  | .rebuild => some { db with stock := rebuildBalances db.stock }
  | .editMaster rows => some { db with rows }
  | .editPurchaseOrders orders => some { db with purchaseOrders := orders }
  | .editSessions sessions => some { db with sessions }

/-- The server, from a database fresh from its migrations. -/
def server : Machine Db Op where
  init db := ∃ rows, db = Db.fresh rows
  step := Op.run

/-- A store, two shops, an item they all keep and the cafe sells, a consultant
who may sign for it and a poster in the lobby: enough of a hospital to run the
server on. -/
def corner : MasterRows :=
  { MasterRows.empty with
    items := fun it =>
      if it = "milk" then
        some ⟨"Milk", "nos", .MRP, ⟨500⟩, none, none, none, true⟩
      else none
    locations := fun loc =>
      if loc = STORE then some ⟨"Store", .Store, none, true⟩
      else if loc = "cafe" then some ⟨"Cafe", .Outlet, some "PL-001", true⟩
      else if loc = "kiosk" then some ⟨"Kiosk", .Outlet, some "PL-001", true⟩
      else none
    menu := fun loc it => loc = "cafe" ∧ it = "milk"
    prices := fun _ it => if it = "milk" then some ⟨5000⟩ else none
    payers := fun kind id =>
      if kind = .doctor ∧ id = "DR-001" then some ⟨"Consultant", true⟩
      else none
    qrCodes := fun token =>
      if token = "poster" then
        some ⟨"QR-001", "cafe", "Lobby", .pickup, true⟩
      else none
    orderHours := fun _ => [⟨4, "05:00", "20:00"⟩] }

/-- So many cartons of milk, ordered off the poster. -/
def guestOrder (n : ℕ) (positive : 0 < n) (capped : n ≤ QR_MAX_QTY) : CreateQrOrderBody where
  name := "Guest"
  phone := "9843022118"
  detail := none
  lines := [⟨"milk", n, by decide, positive, capped⟩]
  named := by decide
  phoneMax := by decide
  detailMax := by
    intro d hd
    cases hd
  nonempty := List.cons_ne_nil _ _
  capped := Nat.le_of_ble_eq_true rfl

def lowestDraw : OtpDraw := 0

/-- Five on the store's shelf, and three of them on a ticket a shop's request
was issued. -/
def milkRun : List Op :=
  [.openStock ⟨"u1", STORE, true⟩ false "milk" 5 0,
   .createRequest ⟨"u2", "cafe", false⟩ ⟨[⟨"milk", 3⟩], "", false⟩ 0,
   .approveRequest ⟨"u1", STORE, true⟩ "REQ-1970-0913" [3] "",
   .issueRequest ⟨"u1", STORE, true⟩ "REQ-1970-0913" lowestDraw 0]

end Rch

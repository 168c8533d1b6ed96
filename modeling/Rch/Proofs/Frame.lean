import Rch.Machine.Service
import Rch.Proofs.CorrectionEffect
import Rch.Proofs.DocumentEffect
import Rch.Proofs.QrEffect
import Rch.Proofs.TicketEffect

/-!
# What each operation leaves alone

The tables fall into parts, and every operation says which of them it may
write. Whatever it does not name, it leaves as it was. An invariant about one
part is then about the few operations that touch it, and the frame theorem
answers for the rest.
-/

namespace Rch

open Kit

inductive Part
  /-- The ledger and the holds. -/
  | stock
  | tickets
  | requests
  /-- The numbers of the kitchen's orders and of the shop asks. -/
  | papers
  /-- The orders and the asks themselves. -/
  | boards
  /-- The bills, the settlements and their lines. -/
  | credit
  /-- The QR orders and the refunds. -/
  | gateway
  /-- The order book and the goods receipts. -/
  | buying
deriving DecidableEq

def Part.Same : Part → Db → Db → Prop
  | .stock, db, db' => db'.stock = db.stock
  | .tickets, db, db' => db'.tickets = db.tickets
  | .requests, db, db' => db'.requests = db.requests
  | .papers, db, db' =>
      db'.prodOrders.keys = db.prodOrders.keys ∧
        db'.shopAsks.keys = db.shopAsks.keys
  | .boards, db, db' =>
      db'.prodOrders = db.prodOrders ∧ db'.shopAsks = db.shopAsks
  | .credit, db, db' =>
      db'.bills = db.bills ∧ db'.settlements = db.settlements ∧
        db'.settlementLines = db.settlementLines
  | .gateway, db, db' => db'.qrOrders = db.qrOrders ∧ db'.refunds = db.refunds
  | .buying, db, db' =>
      db'.purchaseOrders = db.purchaseOrders ∧ db'.grns = db.grns

theorem Part.Same.refl (part : Part) (db : Db) : part.Same db db := by
  cases part
  · exact rfl
  · exact rfl
  · exact rfl
  · exact ⟨rfl, rfl⟩
  · exact ⟨rfl, rfl⟩
  · exact ⟨rfl, rfl, rfl⟩
  · exact ⟨rfl, rfl⟩
  · exact ⟨rfl, rfl⟩

theorem Part.Same.trans {part : Part} {db db' db'' : Db}
    (h : part.Same db db') (h' : part.Same db' db'') : part.Same db db'' := by
  cases part
  · exact Eq.trans h' h
  · exact Eq.trans h' h
  · exact Eq.trans h' h
  · exact ⟨h'.1.trans h.1, h'.2.trans h.2⟩
  · exact ⟨h'.1.trans h.1, h'.2.trans h.2⟩
  · exact ⟨h'.1.trans h.1, h'.2.1.trans h.2.1, h'.2.2.trans h.2.2⟩
  · exact ⟨h'.1.trans h.1, h'.2.trans h.2⟩
  · exact ⟨h'.1.trans h.1, h'.2.trans h.2⟩

def Op.touches : Op → List Part
  | .handover .. | .receive .. | .redirectRequest .. | .issueRequest .. =>
      [.stock, .tickets, .requests]
  | .cancelTicket .. => [.stock, .tickets, .requests, .boards]
  | .transfer .. | .distribute .. => [.stock, .tickets]
  | .dispatchOrder .. | .answerShopAsk .. => [.stock, .tickets, .boards]
  | .makeBatch .. | .createAdjustment .. | .approveAdjustmentRequest ..
  | .openStock .. | .rebuild => [.stock]
  | .receivePo .. => [.stock, .buying]
  | .editPurchaseOrders .. => [.buying]
  | .createRequest .. | .cancelRequest .. | .approveRequest ..
  | .rejectRequest .. => [.requests]
  | .raiseOrder .. | .askShop .. => [.papers, .boards]
  | .setOrderStatus .. | .declineShopAsk .. => [.boards]
  | .pay .. => [.stock, .credit]
  | .voidBill .. | .settleCapture .. => [.stock, .credit, .gateway]
  | .recordSettlement .. | .voidSettlement .. => [.credit]
  | .placeOrder .. | .setRzpOrder .. | .refuseCheckout .. | .setQrStatus ..
  | .expireOrders .. | .claimRefunds .. | .recordSend .. | .recordFailure ..
  | .settleRefund .. | .retryRefund .. => [.gateway]
  | .createAdjustmentRequest .. | .cancelAdjustmentRequest ..
  | .rejectAdjustmentRequest ..
  | .editMaster .. | .editSessions .. => []

/-! ## What the pieces leave alone -/

theorem WroteTicket.same {db db' : Db} {draft : TicketDraft}
    {no : TicketNumber} (h : WroteTicket db draft no db') (part : Part)
    (hs : part ≠ .stock) (ht : part ≠ .tickets) : part.Same db db' := by
  obtain ⟨cells, hw⟩ := h
  rw [hw.rest]
  cases part
  · exact absurd rfl hs
  · exact absurd rfl ht
  · exact rfl
  · exact ⟨rfl, rfl⟩
  · exact ⟨rfl, rfl⟩
  · exact ⟨rfl, rfl, rfl⟩
  · exact ⟨rfl, rfl⟩
  · exact ⟨rfl, rfl⟩

theorem Sold.same {db db' : Db} {i : SaleInput} {at_ : Instant} {no : String}
    {row : BillRow} (h : Sold db i at_ db' no row) (part : Part)
    (hs : part ≠ .stock) (hc : part ≠ .credit) : part.Same db db' := by
  obtain ⟨cells, moves, -, -, -, seq, sessions, hdb⟩ := h.exists_moves
  rw [hdb]
  cases part
  · exact absurd rfl hs
  · exact rfl
  · exact rfl
  · exact ⟨rfl, rfl⟩
  · exact ⟨rfl, rfl⟩
  · exact absurd rfl hc
  · exact ⟨rfl, rfl⟩
  · exact ⟨rfl, rfl⟩

theorem Sold.settlements {db db' : Db} {i : SaleInput} {at_ : Instant}
    {no : String} {row : BillRow} (h : Sold db i at_ db' no row) :
    db'.settlements = db.settlements ∧
      db'.settlementLines = db.settlementLines := by
  obtain ⟨cells, moves, -, -, -, seq, sessions, hdb⟩ := h.exists_moves
  rw [hdb]
  exact ⟨rfl, rfl⟩

theorem RefundsMoved.same {db db' : Db} (h : RefundsMoved db db') (part : Part)
    (hp : part ≠ .gateway) : part.Same db db' := by
  obtain ⟨refunds, -, rfl⟩ := h
  cases part
  · exact rfl
  · exact rfl
  · exact rfl
  · exact ⟨rfl, rfl⟩
  · exact ⟨rfl, rfl⟩
  · exact ⟨rfl, rfl, rfl⟩
  · exact absurd rfl hp
  · exact ⟨rfl, rfl⟩

theorem OrderRefunded.same {db db' : Db} {no : String} {total : Money}
    {at_ : Instant} {order : Option (String × QrOrderRow)}
    (h : OrderRefunded db no total at_ order db') (part : Part)
    (hp : part ≠ .gateway) : part.Same db db' := by
  cases h with
  | noOrder => exact .refl part db
  | unpaid _ => exact .refl part db
  | voided _ _ _ =>
      cases part
      · exact rfl
      · exact rfl
      · exact rfl
      · exact ⟨rfl, rfl⟩
      · exact ⟨rfl, rfl⟩
      · exact ⟨rfl, rfl, rfl⟩
      · exact absurd rfl hp
      · exact ⟨rfl, rfl⟩

theorem Reopened.same {db db' : Db} {t : TicketRow} (h : Reopened db t db')
    (part : Part) (hp : part ≠ .requests) (hb : part ≠ .boards) :
    part.Same db db' := by
  cases h with
  | nothing _ => exact .refl part db
  | request _ _ _ =>
      cases part
      · exact rfl
      · exact rfl
      · exact absurd rfl hp
      · exact ⟨rfl, rfl⟩
      · exact ⟨rfl, rfl⟩
      · exact ⟨rfl, rfl, rfl⟩
      · exact ⟨rfl, rfl⟩
      · exact ⟨rfl, rfl⟩
  | prodOrder _ =>
      cases part
      · exact rfl
      · exact rfl
      · exact rfl
      · exact ⟨Table.keys_modify .., rfl⟩
      · exact absurd rfl hb
      · exact ⟨rfl, rfl, rfl⟩
      · exact ⟨rfl, rfl⟩
      · exact ⟨rfl, rfl⟩
  | shopAsk _ =>
      cases part
      · exact rfl
      · exact rfl
      · exact rfl
      · exact ⟨rfl, Table.keys_modify ..⟩
      · exact absurd rfl hb
      · exact ⟨rfl, rfl, rfl⟩
      · exact ⟨rfl, rfl⟩
      · exact ⟨rfl, rfl⟩

/-- What an operation does not touch, it leaves as it was. -/
theorem Op.frame {op : Op} {db db' : Db} (h : op.run db = some db')
    {part : Part} (hp : part ∉ op.touches) : part.Same db db' := by
  cases op <;> simp only [Op.run, toOption_eq_some, map_ok, Op.touches,
    List.mem_cons, List.not_mem_nil, or_false, not_or, Option.some.injEq]
    at h hp
  -- the operations that end in another function's work
  case transfer =>
    obtain ⟨draft, no, -, -, hs⟩ := transfer_ok h
    exact hs.wrote.same part hp.1 hp.2
  case distribute =>
    obtain ⟨draft, no, -, -, hs⟩ := distribute_ok h
    exact hs.wrote.same part hp.1 hp.2
  case pay =>
    obtain ⟨no, row, hs⟩ := pay_ok h
    exact hs.same part hp.1 hp.2
  case claimRefunds => exact (claimDueRefunds_moved h).same part hp
  case recordSend => exact (recordSend_moved h).same part hp
  case recordFailure => exact (recordFailure_moved h).same part hp
  case settleRefund => exact (settleRefund_moved h).same part hp
  case retryRefund => exact (retryRefund_moved h).same part hp
  -- the ones that write their own tables after it
  case' redirectRequest =>
    obtain ⟨r, draft, no, db₁, -, -, -, -, hw, -, rfl⟩ := redirectRequest_ok h
    refine (hw.same part hp.1 hp.2.1).trans ?_
  case' issueRequest =>
    obtain ⟨r, draft, no, db₁, -, -, -, -, hs, rfl⟩ := issueRequest_ok h
    refine (hs.wrote.same part hp.1 hp.2.1).trans ?_
  case' dispatchOrder =>
    obtain ⟨o, draft, no, db₁, -, -, -, hs, rfl⟩ := dispatchOrder_ok h
    refine (hs.wrote.same part hp.1 hp.2.1).trans ?_
  case' answerShopAsk =>
    obtain ⟨a, draft, no, db₁, -, -, -, hs, rfl⟩ := answerShopAsk_ok h
    refine (hs.wrote.same part hp.1 hp.2.1).trans ?_
  case' cancelTicket =>
    obtain ⟨t, -, -, hr⟩ := cancelTicket_ok h
    refine Part.Same.trans ?_ (hr.same part hp.2.2.1 hp.2.2.2)
  case' voidBill =>
    obtain ⟨bill, stamp, -, -, -, hr⟩ := voidBill_ok h
    refine Part.Same.trans ?_ (hr.same part hp.2.2)
  case' approveAdjustmentRequest =>
    obtain ⟨_, f, ⟨cells, moves, adjustments, -, -, -, rfl⟩, rfl⟩ :=
      approveAdjustmentRequest_ok h
  case' settleCapture =>
    obtain ⟨o, -, hs⟩ := settleCapture_ok h
    cases hs
  case' settleCapture.billed hsold _ _ =>
    refine (hsold.same part hp.1 hp.2.1).trans ?_
  case' expireOrders =>
    refine expireOrders_induct (P := part.Same db) ?_ (.refl part db) h
    intro db₁ id o hsame _ _
    refine hsame.trans ?_
  -- and the ones that write nothing else
  case' handover =>
    obtain ⟨⟨db₁, e⟩, h, rfl⟩ := h
    obtain ⟨t, -, -, rfl | ⟨moves, -, -, rfl⟩⟩ := handover_ok h
  case' receive => obtain ⟨t, -, -, rfl⟩ := receive_ok h
  case' createRequest =>
    obtain ⟨r, requests, -, -, -, rfl⟩ := createRequest_ok h
  case' cancelRequest => obtain ⟨r, -, -, rfl⟩ := cancelRequest_ok h
  case' approveRequest =>
    obtain ⟨r, plan, -, -, -, -, rfl⟩ := approveRequest_ok h
  case' rejectRequest => obtain ⟨r, -, -, rfl⟩ := rejectRequest_ok h
  case' raiseOrder => obtain ⟨o, prodOrders, -, rfl⟩ := raiseOrder_ok h
  case' setOrderStatus => cases setOrderStatus_ok h
  case' makeBatch =>
    obtain ⟨moves, seq, batches, -, -, -, rfl⟩ := makeBatch_ok h
  case' askShop => obtain ⟨a, shopAsks, -, rfl⟩ := askShop_ok h
  case' declineShopAsk => obtain ⟨f, rfl⟩ := declineShopAsk_ok h
  case' createAdjustment =>
    obtain ⟨cells, moves, adjustments, -, -, -, rfl⟩ := createAdjustment_ok h
  case' createAdjustmentRequest =>
    obtain ⟨adjustmentRequests, rfl⟩ := createAdjustmentRequest_ok h
  case' cancelAdjustmentRequest =>
    obtain ⟨f, rfl⟩ := cancelAdjustmentRequest_ok h
  case' rejectAdjustmentRequest =>
    obtain ⟨f, rfl⟩ := rejectAdjustmentRequest_ok h
  case' receivePo =>
    obtain ⟨moves, grns, purchaseOrders, -, rfl⟩ := receivePo_ok h
  case' openStock =>
    obtain ⟨moves, seq, batches, -, -, -, rfl⟩ := openStock_ok h
  case' recordSettlement =>
    obtain ⟨id, row, lines, settlements, settlementLines, -, -, -, -, -, -, -,
      -, rfl⟩ := recordSettlement_ok h
  case' voidSettlement =>
    obtain ⟨row, stamp, -, -, rfl⟩ := voidSettlement_ok h
  case' placeOrder =>
    obtain ⟨id, o, qrOrders, seq, -, -, -, -, -, -, rfl⟩ := placeOrder_ok h
  case' setRzpOrder =>
    obtain rfl | ⟨o, -, -, -, rfl⟩ := setRzpOrder_ok h
  case' refuseCheckout =>
    obtain rfl | ⟨o, -, -, rfl⟩ := refuseCheckout_ok h
  case' setQrStatus => obtain ⟨o, -, -, -, rfl⟩ := setQrStatus_ok h
  case' rebuild => subst h
  case' editMaster => subst h
  case' editPurchaseOrders => subst h
  case' editSessions => subst h
  all_goals cases part
  all_goals first
    | exact absurd rfl hp
    | exact absurd rfl hp.1
    | exact absurd rfl hp.2
    | exact absurd rfl hp.2.1
    | exact absurd rfl hp.2.2
    | exact ⟨rfl, rfl⟩
    | exact rfl
    | exact ⟨Table.keys_modify .., rfl⟩
    | exact ⟨rfl, Table.keys_modify ..⟩
    | exact ⟨rfl, rfl, rfl⟩

end Rch

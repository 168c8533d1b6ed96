import Rch.Api.Purchasing
import Rch.Machine.Service

/-!
# Buying, from the requisition to the last instalment

Every write of the requisitions, the purchase orders and the goods receipts,
with everything else the server does going on between them. A write takes its
order's row before the requisitions' and each of them before it reads their
lines, so two writes that touch the same rows run one after the other.

The order book and the receiving door are these writes' alone, so the two
operations of the server that leave the one open and serve the other are not
taken from it again.
-/

namespace Rch

open Kit

/-- The order book's writers among the server's own operations. -/
def Op.buys : Op → Bool
  | .receivePo .. | .editPurchaseOrders .. => true
  | _ => false

/-- A delivery as its schema admits it: quantities of three decimals. -/
def ReceivePoBody.Admitted (body : ReceivePoBody) : Prop :=
  ∀ r ∈ body.lines, (round3 r.recv : ℚ) = r.recv ∧ (round3 r.rejected : ℚ) = r.rejected

instance (body : ReceivePoBody) : Decidable body.Admitted :=
  inferInstanceAs (Decidable (∀ _ ∈ _, _))

inductive BuyingOp
  | createRequisition (claims : Claims) (body : CreateRequisitionBody) (at_ : Instant)
  | addDirect (claims : Claims) (body : CreateRequisitionBody) (at_ : Instant)
  | approveRequisition (claims : Claims) (id : String) (appr : List ℚ) (note : String)
  | declineRequisition (claims : Claims) (id note : String)
  | createPo (desk : BuyingDesk) (body : CreatePoBody) (at_ : Instant)
  | updatePoLine (id : String) (n : ℕ) (body : UpdatePoLineBody)
  | removePoLine (id : String) (n : ℕ)
  | patchPo (desk : BuyingDesk) (id : String) (body : PatchPoBody) (at_ : Instant)
  | sendPo (desk : BuyingDesk) (id : String) (at_ : Instant)
  | cancelPo (id reason : String)
  | receivePo (claims : Claims) (id : String) (body : ReceivePoBody) (at_ : Instant)
  | closeShort (id reason : String)
  | other (op : Op)

def BuyingOp.run (localeCompare : String → String → Ordering) (b : Buying) :
    BuyingOp → Option Buying
  | .createRequisition claims body at_ =>
      (Rch.createRequisition b claims body at_).toOption
  | .addDirect claims body at_ => (Rch.addDirect b claims body at_).toOption
  | .approveRequisition claims id appr note =>
      (Rch.approveRequisition b claims id appr note).toOption
  | .declineRequisition claims id note =>
      (Rch.declineRequisition b claims id note).toOption
  | .createPo desk body at_ => (Rch.createPo localeCompare b desk body at_).toOption
  | .updatePoLine id n body => (Rch.updatePoLine localeCompare b id n body).toOption
  | .removePoLine id n => (Rch.removePoLine localeCompare b id n).toOption
  | .patchPo desk id body at_ => (Rch.patchPo b desk id body at_).toOption
  | .sendPo desk id at_ => (Rch.sendPo b desk id at_).toOption
  | .cancelPo id reason => (Rch.cancelPo localeCompare b id reason).toOption
  | .receivePo claims id body at_ =>
    if body.Admitted then
      (Rch.receivePo b.db claims id body at_).toOption.map fun db => { b with db }
    else none
  | .closeShort id reason => (Rch.closeShort localeCompare b id reason).toOption
  | .other op =>
    if op.buys then none else (op.run b.db).map fun db => { b with db }

/-- The buying desk over a server, whatever names are collated by. -/
def procurement (localeCompare : String → String → Ordering) :
    Machine Buying BuyingOp where
  init b := ∃ rows, b = ⟨Db.fresh rows, Table.empty, Table.empty⟩
  step := BuyingOp.run localeCompare

/-! ## What is claimed -/

/-- Received and noted: the order was closed short of something. -/
def closedShort (o : PurchaseOrderRow) (h : PoHead) : Prop :=
  o.status = .received ∧ h.shortNote ≠ none

instance (o : PurchaseOrderRow) (h : PoHead) : Decidable (closedShort o h) :=
  inferInstanceAs (Decidable (_ ∧ _))

/-- What a line of an order claims on the requisitions: nothing once the order
is cancelled, its share of the net received once it is closed short, and its
sources whole until then. -/
def lineClaims (o : PurchaseOrderRow) (h : PoHead) (l : PoLine) (t : PoTerm) :
    List ClaimSrc :=
  if o.status = .cancelled then []
  else if closedShort o h then
    cutTo t.src (apportion (netReceived l.recv l.rejected) (t.src.map ClaimSrc.qty))
  else t.src

def orderClaims (o : PurchaseOrderRow) (h : PoHead) : List ClaimSrc :=
  (List.zipWith (lineClaims o h) o.lines h.terms).flatten

/-- What an order claims on one requisition line, by its number. -/
def Buying.orderClaim (b : Buying) (k : String × ℕ) (id : String) (h : PoHead) : Qty :=
  ((b.db.purchaseOrders.get? id).map fun o => claimed (orderClaims o h) k).getD 0

def Buying.claimedOn (b : Buying) (k : String × ℕ) : Qty :=
  b.heads.total (b.orderClaim k)

end Rch

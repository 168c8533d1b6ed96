import Rch.Machine.Checkout
import Rch.Proofs.OrderCore

/-!
# The server keeps sound books

The database and the gateway's payments, read as the books of a seller who is
paid in advance: an order's standing is its payment and bill, a refund row is
money to be handed back, and a payment was made for the order its gateway order
was opened for. Each operation is one of the events such a seller may see, or
none at all.
-/

namespace Rch

open Kit

def QrOrderRow.standing (o : QrOrderRow) : Standing String String :=
  match o.rzpPaymentId, o.billNo with
  | none, _ => .unsettled
  | some p, some no => .billed p no
  | some p, none => .refused p

def BillRow.raised (b : BillRow) : Raised String Money :=
  ⟨b.qrOrderId, b.total, b.voided.isSome⟩

def refundsDue (db : Db) : List (Refund String String Money) :=
  (db.refunds.view RefundRow.due).map Prod.snd

/-- What a payment was made for: our order behind the gateway's. -/
def madeFor (gateway : Table String Payment) (db : Db) (pid : String) :
    Option (String × Money) :=
  (gateway.get? pid).bind fun e =>
    (orderOf db.qrOrders e.order).map fun id => (id, e.amount)

def takingsOf (gateway : Table String Payment) (db : Db) :
    Takings String String String Money where
  madeFor := madeFor gateway db
  taken pid := (gateway.get? pid).any Payment.captured
  orders := db.qrOrders.look QrOrderRow.standing
  bills := db.bills.look BillRow.raised
  refunds := refundsDue db

theorem madeFor_some {gateway : Table String Payment} {db : Db}
    {pid id : String} {m : Money} (h : madeFor gateway db pid = some (id, m)) :
    ∃ e o, gateway.get? pid = some e ∧ m = e.amount ∧
      db.qrOrders.get? id = some o ∧ o.rzpOrderId = some e.order := by
  obtain ⟨e, he, h⟩ := Option.bind_eq_some_iff.1 h
  obtain ⟨x, hx, heq⟩ := Option.map_eq_some_iff.1 h
  cases heq
  obtain ⟨o, ho, hrz⟩ := orderOf_some hx
  exact ⟨e, o, he, rfl, ho, hrz⟩

theorem OrdersKept.madeFor_eq {gateway : Table String Payment} {db : Db}
    (hk : OrdersKept db.qrOrders) {pid id : String} {e : Payment}
    {o : QrOrderRow} (he : gateway.get? pid = some e)
    (ho : db.qrOrders.get? id = some o) (hrz : o.rzpOrderId = some e.order) :
    madeFor gateway db pid = some (id, e.amount) := by
  rw [madeFor, he, Option.bind_some, hk.orderOf_eq ho hrz, Option.map_some]

/-! ## Books that did not move -/

theorem standing_of_core {o o' : QrOrderRow} (h : o'.core = o.core) :
    o'.standing = o.standing := by
  have hpid := congrArg OrderCore.rzpPaymentId h
  have hno := congrArg OrderCore.billNo h
  change o'.rzpPaymentId = o.rzpPaymentId at hpid
  change o'.billNo = o.billNo at hno
  unfold QrOrderRow.standing
  rw [hpid, hno]

section Same

variable {t t' : Table String QrOrderRow}

theorem look_standing (h : t'.view QrOrderRow.core = t.view QrOrderRow.core) :
    t'.look QrOrderRow.standing = t.look QrOrderRow.standing := by
  funext id
  cases ho' : t'.get? id with
  | none =>
      have hl := t'.lookup_view QrOrderRow.core id
      rw [h, t.lookup_view, ho', Option.map_none, Option.map_eq_none_iff] at hl
      rw [Table.look, Table.look, ho', hl]
  | some o' =>
      obtain ⟨o, ho, hc⟩ := get?_of_view h ho'
      rw [Table.look_of_get? ho', Table.look_of_get? ho, standing_of_core hc]

theorem orderOf_of_view (h : t'.view QrOrderRow.core = t.view QrOrderRow.core) :
    orderOf t' = orderOf t := by
  funext rz
  rw [orderOf_eq_view, orderOf_eq_view, h]

end Same

theorem takingsOf_same {db db' : Db} (gateway : Table String Payment)
    (hb : db'.bills = db.bills)
    (ho : db'.qrOrders.view QrOrderRow.core = db.qrOrders.view QrOrderRow.core)
    (hr : refundsDue db' = refundsDue db) :
    takingsOf gateway db' = takingsOf gateway db := by
  unfold takingsOf madeFor
  rw [hb, hr, look_standing ho, orderOf_of_view ho]

theorem RefundsMoved.takings {db db' : Db} (gateway : Table String Payment)
    (h : RefundsMoved db db') : takingsOf gateway db' = takingsOf gateway db := by
  obtain ⟨refunds, hv, rfl⟩ := h
  refine takingsOf_same gateway rfl rfl ?_
  unfold refundsDue
  rw [hv]

/-! ## The events -/

section Events

variable {db db' : Db} (gateway : Table String Payment)

theorem refundsDue_insert {d : RefundDraft} {rid : String}
    {refunds : Table String RefundRow}
    (h : db.refunds.insert? rid (newRefund d) = some refunds) :
    ((refunds.view RefundRow.due).map Prod.snd) =
      refundsDue db ++ [⟨d.qrOrderId, d.paymentId, d.amount⟩] := by
  rw [Table.view_insert h, List.map_append]
  rfl

/-- A sale at the till: a bill no order is behind. -/
theorem Sold.takings {i : SaleInput} {at_ : Instant} {no : String}
    {row : BillRow} (h : Sold db i at_ db' no row) (hq : i.qrOrderId = none) :
    (takingsOf gateway db).Step (takingsOf gateway db') := by
  obtain ⟨plan, terms, payer, phone, session, hrow⟩ := h.row_eq
  have hraised : row.raised = ⟨none, row.total, false⟩ := by
    rw [hrow, BillRow.raised, billRow, hq]
    rfl
  have hbills := Table.look_insert h.bills BillRow.raised
  have hfree := (Table.insert?_eq_some h.bills).1
  have hsame := h.same .gateway nofun nofun
  have hstep := Takings.Step.sell (s := takingsOf gateway db) (b := no)
    (m := row.total) (Table.look_eq_none.2 hfree)
  convert hstep using 1
  unfold takingsOf madeFor refundsDue
  rw [hbills, hraised, hsame.1, hsame.2]

/-- A void: of a bill no order is behind, or of an order's with its money. -/
theorem voidBill_takings {claims : Claims} {no reason : String}
    {at_ : Instant} (hs : (takingsOf gateway db).Sound)
    (h : voidBill db claims no reason at_ = .ok db') :
    (takingsOf gateway db).Step (takingsOf gateway db') := by
  obtain ⟨bill, stamp, hb, hlive, -, hr⟩ := voidBill_ok h
  have hbills := Table.look_modify hb (stampBill stamp) BillRow.raised
  have hlook := Table.look_of_get? hb BillRow.raised
  have hstrike := Takings.Step.strike (s := takingsOf gateway db) hlook
  generalize horder : orderOfBill db bill = order at hr
  cases hr with
  | noOrder =>
      convert hstrike using 1
      unfold takingsOf
      rw [hbills]
      rfl
  | unpaid _ =>
      convert hstrike using 1
      unfold takingsOf
      rw [hbills]
      rfl
  | @voided oid pid o refunds hp hst hins =>
      obtain ⟨-, hq, ho⟩ := orderOfBill_some horder
      have hraised : bill.raised = ⟨some oid, bill.total, false⟩ := by
        rw [BillRow.raised, hq, hlive]
        rfl
      rw [hraised] at hlook
      obtain ⟨p, hx⟩ := hs.bills no oid bill.total false hlook
      have hstanding : o.standing = .billed p no := by
        obtain ⟨o', ho', heq⟩ := Table.look_eq_some.1 hx
        cases ho.symm.trans ho'
        exact heq
      obtain rfl : p = pid := by
        unfold QrOrderRow.standing at hstanding
        rw [hp] at hstanding
        split at hstanding
        · cases hstanding
        · next heq _ =>
            cases heq
            cases hstanding
            rfl
        · cases hstanding
      have hstep := Takings.Step.void (s := takingsOf gateway db) hlook hx
      convert hstep using 1
      have hcore : (patchOrder o .voided at_ .none).core = o.core := by
        apply patchOrder_core
        revert hst
        unfold QrOrderRow.unpaid
        cases o.status <;> decide
      have hview := Table.view_modify_of_get? ho
        (u := fun _ => patchOrder o .voided at_ .none) hcore
      unfold takingsOf madeFor
      dsimp only
      rw [hbills, look_standing hview, orderOf_of_view hview]
      congr 1
      · congr 1
        simp only [BillRow.raised, stampBill, hq, Option.isSome_some]
      · exact refundsDue_insert hins

theorem placeOrder_takings {config : QrConfig} {token : String}
    {body : CreateQrOrderBody} {meta_ : PlaceMeta} {now : Instant}
    (h : placeOrder db config token body meta_ now = .ok db') :
    (takingsOf gateway db).Step (takingsOf gateway db') := by
  obtain ⟨id, o, qrOrders, seq, hins, -, hrz, hpid, -, -, rfl⟩ :=
    placeOrder_ok h
  have hfree := (Table.insert?_eq_some hins).1
  have hstanding : o.standing = .unsettled := by
    unfold QrOrderRow.standing
    rw [hpid]
  have horders := Table.look_insert hins QrOrderRow.standing
  rw [hstanding] at horders
  have hfind : orderOf qrOrders = orderOf db.qrOrders := by
    funext rz
    unfold orderOf
    rw [(Table.insert?_eq_some hins).2, List.find?_append]
    simp [hrz]
  have hstep := Takings.Step.place (s := takingsOf gateway db) (x := id)
    (Table.look_eq_none.2 hfree)
  convert hstep using 1
  unfold takingsOf madeFor
  dsimp only
  rw [horders, hfind]
  rfl

/-- The gateway's order put on ours tells what its payments are for. -/
theorem setRzpOrder_takings {id rz : String} (hk : OrdersKept db.qrOrders)
    (h : setRzpOrder db id rz = .ok db') :
    Relation.ReflGen Takings.Step (takingsOf gateway db)
      (takingsOf gateway db') := by
  obtain rfl | ⟨o, ho, hnone, hfree, rfl⟩ := setRzpOrder_ok h
  · exact .refl
  have hmove : OrdersMove db.qrOrders (db.qrOrders.modify id fun o =>
      { o with rzpOrderId := some rz }) := .asked ho hnone hfree rfl
  have horders : (db.qrOrders.modify id fun o =>
      { o with rzpOrderId := some rz }).look QrOrderRow.standing =
        db.qrOrders.look QrOrderRow.standing :=
    Table.look_of_view (Table.view_modify fun _ => rfl)
  have hknown : ∀ p y, madeFor gateway db p = some y →
      madeFor gateway { db with qrOrders := db.qrOrders.modify id fun o =>
        { o with rzpOrderId := some rz } } p = some y := by
    rintro p ⟨x, m⟩ hp
    obtain ⟨e, o₀, he, rfl, hx, hrz⟩ := madeFor_some hp
    obtain ⟨o', ho', hrz'⟩ := hmove.rzpOrder hx hrz
    exact (hmove.kept hk).madeFor_eq he ho' hrz'
  have hstep := Takings.Step.learn (s := takingsOf gateway db) hknown
    (g := (takingsOf gateway db).taken) fun _ ht => ht
  refine .single ?_
  convert hstep using 1
  unfold takingsOf
  dsimp only
  rw [horders]
  rfl

end Events

/-- An operation other than a capture is one of the events, or none. -/
theorem Op.takings {op : Op} {db db' : Db} (gateway : Table String Payment)
    (hk : OrdersKept db.qrOrders) (hs : (takingsOf gateway db).Sound)
    (hc : Checkout.isCapture op = false) (h : op.run db = some db') :
    Relation.ReflGen Takings.Step (takingsOf gateway db)
      (takingsOf gateway db') := by
  have hstill (heq : takingsOf gateway db' = takingsOf gateway db) :
      Relation.ReflGen Takings.Step (takingsOf gateway db)
        (takingsOf gateway db') := by
    rw [heq]
  have hframe : .gateway ∉ op.touches → db'.bills = db.bills →
      takingsOf gateway db' = takingsOf gateway db := by
    intro hg hb
    obtain ⟨ho, hr⟩ := op.frame h hg
    refine takingsOf_same gateway hb (by rw [ho]) ?_
    unfold refundsDue
    rw [hr]
  by_cases hp : .gateway ∈ op.touches ∨ .credit ∈ op.touches
  case neg =>
    rw [not_or] at hp
    exact hstill (hframe hp.1 (op.frame h hp.2).1)
  cases op <;> simp only [Op.run, toOption_eq_some, Op.touches,
    List.mem_cons, List.not_mem_nil, or_false, reduceCtorEq, or_self,
    Checkout.isCapture] at h hp hc
  case pay =>
    obtain ⟨no, row, hsold⟩ := pay_ok h
    exact .single (hsold.takings gateway rfl)
  case voidBill => exact .single (voidBill_takings gateway hs h)
  case recordSettlement =>
    apply hstill
    apply hframe (by simp [Op.touches])
    obtain ⟨id, row, lines, settlements, settlementLines, -, -, -, -, -, -, -,
      -, rfl⟩ := recordSettlement_ok h
    rfl
  case voidSettlement =>
    apply hstill
    apply hframe (by simp [Op.touches])
    obtain ⟨row, stamp, -, -, rfl⟩ := voidSettlement_ok h
    rfl
  case placeOrder => exact .single (placeOrder_takings gateway h)
  case setRzpOrder => exact setRzpOrder_takings gateway hk h
  case refuseCheckout =>
    obtain rfl | ⟨o, ho, hst, rfl⟩ := refuseCheckout_ok h
    · exact .refl
    · exact hstill (takingsOf_same gateway rfl (expired_core ho hst) rfl)
  case setQrStatus =>
    obtain ⟨o, ho, hstep, -, rfl⟩ := setQrStatus_ok h
    exact hstill (takingsOf_same gateway rfl (stepped_core ho hstep) rfl)
  case expireOrders =>
    apply hstill
    refine expireOrders_induct (P := fun db₁ =>
      takingsOf gateway db₁ = takingsOf gateway db) ?_ rfl h
    intro db₁ id o hsame ho hst
    rw [← hsame]
    exact takingsOf_same gateway rfl (expired_core ho hst) rfl
  case claimRefunds =>
    exact hstill ((claimDueRefunds_moved h).takings gateway)
  case recordSend => exact hstill ((recordSend_moved h).takings gateway)
  case recordFailure => exact hstill ((recordFailure_moved h).takings gateway)
  case settleRefund => exact hstill ((settleRefund_moved h).takings gateway)
  case retryRefund => exact hstill ((retryRefund_moved h).takings gateway)

end Rch

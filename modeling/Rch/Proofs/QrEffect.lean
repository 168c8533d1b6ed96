import Rch.Api.Qr
import Rch.Kit.Takings
import Rch.Proofs.SaleEffect

/-!
# What each step of a QR order leaves behind

An order's row is rewritten by the gateway's order, by its own moves and by
nothing else. A refund's row, once written, keeps the three things that say
what it is for: the order, the payment and the amount. A capture that is
settled ends in one of five ways, and they are listed here once.
-/

namespace Rch

open Kit

/-! ## Refund rows -/

/-- What a refund row is for. No move of the row changes it. -/
def RefundRow.due (r : RefundRow) : Refund String String Money :=
  ⟨r.qrOrderId, r.paymentId, r.amount⟩

/-- Refund rows were moved, and nothing else was touched. -/
def RefundsMoved (db db' : Db) : Prop :=
  ∃ refunds, refunds.view RefundRow.due = db.refunds.view RefundRow.due ∧
    db' = { db with refunds }

theorem RefundsMoved.refl (db : Db) : RefundsMoved db db :=
  ⟨db.refunds, rfl, rfl⟩

theorem RefundsMoved.trans {db db' db'' : Db} (h : RefundsMoved db db')
    (h' : RefundsMoved db' db'') : RefundsMoved db db'' := by
  obtain ⟨refunds, hv, rfl⟩ := h
  obtain ⟨refunds', hv', rfl⟩ := h'
  exact ⟨refunds', hv'.trans hv, rfl⟩

theorem refundsMoved_modify (db : Db) (id : String) {f : RefundRow → RefundRow}
    (h : ∀ r, (f r).due = r.due) :
    RefundsMoved db { db with refunds := db.refunds.modify id f } :=
  ⟨_, Table.view_modify h, rfl⟩

theorem patchRefund_due (r : RefundRow) (next : RefundStatus)
    (p : RefundPatch) : (patchRefund r next p).due = r.due := by
  cases next <;> rfl

/-- What `moveRefund` leaves behind. -/
theorem moveRefund_ok {db db' : Db} {id : String} {next : RefundStatus}
    {p : RefundPatch} (h : moveRefund db id next p = .ok db') :
    ∃ r, db.refunds.get? id = some r ∧ next ∈ refundTransitions r.status ∧
      db' = { db with refunds :=
        db.refunds.modify id fun r => patchRefund r next p } := by
  simp only [moveRefund, bind_ok, orNotFound_ok, assertTransition_ok,
    guardOr_ok, exists_const, pure_ok] at h
  obtain ⟨r, hr, hst, -, rfl⟩ := h
  refine ⟨r, hr, hst, ?_⟩
  rw [Table.modify_congr hr (f := fun _ => patchRefund r next p)
    (g := fun r => patchRefund r next p) rfl]

theorem moveRefund_moved {db db' : Db} {id : String} {next : RefundStatus}
    {p : RefundPatch} (h : moveRefund db id next p = .ok db') :
    RefundsMoved db db' := by
  obtain ⟨r, -, -, rfl⟩ := moveRefund_ok h
  exact refundsMoved_modify db id fun r => patchRefund_due r next p

theorem deferRefund_moved {db db' : Db} {id : String} {e : SendFailure}
    (h : deferRefund db id e = .ok db') : RefundsMoved db db' := by
  simp only [deferRefund, bind_ok, orNotFound_ok, ite_eq_iff,
    assertTransition_ok, exists_const, pure_ok] at h
  obtain ⟨r, -, ⟨-, -, rfl⟩ | ⟨-, rfl⟩⟩ := h
  · exact refundsMoved_modify db id fun _ => rfl
  · exact refundsMoved_modify db id fun _ => rfl

theorem claimDueRefunds_moved {db db' : Db} {now : Instant} {ids : List String}
    (h : claimDueRefunds db now ids = some db') : RefundsMoved db db' := by
  unfold claimDueRefunds at h
  split at h
  · cases h
    refine ⟨_, Table.view_update fun id r => ?_, rfl⟩
    split
    · rfl
    · rfl
  · cases h

theorem recordSend_moved {db db' : Db} {id rid : String}
    {outcome : Option RefundOutcome} {at_ : Instant}
    (h : recordSend db id rid outcome at_ = .ok db') : RefundsMoved db db' := by
  unfold recordSend at h
  split at h
  · cases pure_ok.1 h
    exact .refl db
  · split at h
    · cases pure_ok.1 h
      exact .refl db
    · obtain ⟨db₁, h₁, h⟩ := bind_ok.1 h
      have hsent := moveRefund_moved h₁
      split at h
      · cases pure_ok.1 h
        exact hsent
      · exact hsent.trans (moveRefund_moved h)
      · exact hsent.trans (moveRefund_moved h)

theorem recordFailure_moved {db db' : Db} {id : String} {e : SendFailure}
    (h : recordFailure db id e = .ok db') : RefundsMoved db db' := by
  unfold recordFailure at h
  split at h
  · cases pure_ok.1 h
    exact .refl db
  · split at h
    · cases pure_ok.1 h
      exact .refl db
    · exact deferRefund_moved h

theorem settleRefund_moved {db db' : Db} {rid : String} {note : Option String}
    {outcome : RefundOutcome} {at_ : Instant}
    (h : settleRefund db rid note outcome at_ = .ok db') :
    RefundsMoved db db' := by
  unfold settleRefund at h
  split at h
  · cases pure_ok.1 h
    exact .refl db
  · split at h
    · cases pure_ok.1 h
      exact .refl db
    · split at h
      · cases pure_ok.1 h
        exact .refl db
      · split at h
        · split at h
          · obtain ⟨db₁, h₁, h⟩ := bind_ok.1 h
            exact (moveRefund_moved h₁).trans (moveRefund_moved h)
          · exact moveRefund_moved h
        · exact moveRefund_moved h

theorem retryRefund_moved {db db' : Db} {id : String} {at_ : Instant}
    (h : retryRefund db id at_ = .ok db') : RefundsMoved db db' := by
  simp only [retryRefund, bind_ok, orNotFound_ok, assertRule_ok,
    exists_const] at h
  obtain ⟨r, -, -, h⟩ := h
  exact moveRefund_moved h

/-! ## An order's own moves -/

/-- What a placed order leaves behind: a row nobody has paid for. -/
theorem placeOrder_ok {db db' : Db} {config : QrConfig} {token : String}
    {body : CreateQrOrderBody} {meta_ : PlaceMeta} {now : Instant}
    (h : placeOrder db config token body meta_ now = .ok db') :
    ∃ id o qrOrders seq, db.qrOrders.insert? id o = some qrOrders ∧
      o.status = .awaitingPayment ∧ o.rzpOrderId = none ∧
      o.rzpPaymentId = none ∧ o.billNo = none ∧
      (∀ l ∈ o.lines, 0 ≤ l.qty) ∧ db' = { db with seq, qrOrders } := by
  unfold placeOrder allocateId at h
  simp only [bind_ok, assertRule_ok, orNotFound_ok, assertEach_ok, guardOr_ok,
    orInternal_ok, exists_const, pure_ok] at h
  obtain ⟨code, -, loc, -, -, -, -, -, -, -, -, -, -, -, -, -, qrOrders, hins,
    rfl⟩ := h
  refine ⟨_, _, qrOrders, _, hins, rfl, rfl, rfl, rfl, ?_, rfl⟩
  intro l hl
  obtain ⟨b, hb, rfl⟩ := List.mem_map.1 hl
  rw [planBill_lines] at hb
  obtain ⟨c, hc, rfl⟩ := List.mem_map.1 hb
  refine foldLines_qty_nonneg (fun x hx => ?_) hc
  obtain ⟨y, -, rfl⟩ := List.mem_map.1 hx
  exact Nat.cast_nonneg y.qty

theorem setRzpOrder_ok {db db' : Db} {id rz : String}
    (h : setRzpOrder db id rz = .ok db') :
    db' = db ∨ ∃ o, db.qrOrders.get? id = some o ∧ o.rzpOrderId = none ∧
      (∀ x ∈ db.qrOrders.rows, x.2.rzpOrderId ≠ some rz) ∧
      db' = { db with qrOrders := db.qrOrders.modify id fun o =>
        { o with rzpOrderId := some rz } } := by
  simp only [setRzpOrder, bind_ok, guardOr_ok, exists_const, ite_eq_iff,
    pure_ok, Option.any_eq_true, Option.isNone_iff_eq_none] at h
  obtain ⟨⟨o, ho, hnone⟩, hfree, rfl⟩ | ⟨-, rfl⟩ := h
  · exact .inr ⟨o, ho, hnone, hfree, rfl⟩
  · exact .inl rfl

/-- An order that changed status, and nothing else about it. -/
def restatus (db : Db) (id : String) (next : QrOrderStatus) (at_ : Instant) :
    Db :=
  { db with qrOrders := db.qrOrders.modify id fun o =>
      patchOrder o next at_ .none }

theorem moveQrOrder_restatus {db db' : Db} {id : String} {o : QrOrderRow}
    {next : QrOrderStatus} {at_ : Instant} (ho : db.qrOrders.get? id = some o)
    (h : moveQrOrder db id o next at_ .none = .ok db') :
    next ∈ qrOrderTransitions o.status ∧ db' = restatus db id next at_ := by
  obtain ⟨hst, -, rfl⟩ := moveQrOrder_ok h
  refine ⟨hst, ?_⟩
  unfold restatus
  rw [Table.modify_congr ho (f := fun _ => patchOrder o next at_ .none)
    (g := fun o => patchOrder o next at_ .none) rfl]

theorem refuseCheckout_ok {db db' : Db} {id : String} {at_ : Instant}
    (h : refuseCheckout db id at_ = .ok db') :
    db' = db ∨ ∃ o, db.qrOrders.get? id = some o ∧
      o.status = .awaitingPayment ∧ db' = restatus db id .expired at_ := by
  unfold refuseCheckout at h
  split at h
  · exact .inl (pure_ok.1 h).symm
  · next o ho =>
      split at h
      · next hst =>
          exact .inr ⟨o, ho, hst, (moveQrOrder_restatus ho h).2⟩
      · exact .inl (pure_ok.1 h).symm

theorem setQrStatus_ok {db db' : Db} {claims : Claims} {id : String}
    {next : QrOrderStatus} {at_ : Instant}
    (h : setQrStatus db claims id next at_ = .ok db') :
    ∃ o, db.qrOrders.get? id = some o ∧
      nextQrStep o.mode o.status = some next ∧
      next ∈ qrOrderTransitions o.status ∧ db' = restatus db id next at_ := by
  simp only [setQrStatus, bind_ok, orNotFound_ok, assertRule_ok,
    requireLocOf_ok, exists_const, ite_eq_iff] at h
  obtain ⟨o, ho, h⟩ := h
  obtain ⟨-, hstep, hmove⟩ : _ ∧ _ := by
    rcases h with ⟨-, -, h⟩ | ⟨-, h⟩
    · exact h
    · exact h
  exact ⟨o, ho, hstep, moveQrOrder_restatus ho hmove⟩

/-- A pass of the expiry is one lapse after another. -/
theorem expireOrders_induct {P : Db → Prop} {now : Instant}
    (hstep : ∀ db id o, P db → db.qrOrders.get? id = some o →
      o.status = .awaitingPayment → P (restatus db id .expired now))
    {ids : List String} {db db' : Db} (h₀ : P db)
    (h : expireOrders db now ids = .ok db') : P db' := by
  induction ids generalizing db with
  | nil =>
      cases pure_ok.1 h
      exact h₀
  | cons id ids ih =>
      simp only [expireOrders, bind_ok, orNotFound_ok, guardOr_ok,
        exists_const] at h
      obtain ⟨o, ho, ⟨hst, -⟩, db₁, hmove, h⟩ := h
      obtain ⟨-, rfl⟩ := moveQrOrder_restatus ho hmove
      exact ih (hstep db id o h₀ ho hst) h

/-! ## The capture -/

/-- Whether an order still waits for its payment. A lapsed one still takes
it. -/
def QrOrderRow.unpaid (o : QrOrderRow) : Prop :=
  o.status = .awaitingPayment ∨ o.status = .expired

/-- The ways a settled capture ends. -/
inductive Settles (db : Db) (oid : String) (o : QrOrderRow)
    (p : GatewayPayment) (at_ : Instant) : Db → Prop
  | again (h : o.rzpPaymentId = some p.id) : Settles db oid o p at_ db
  | refundedBefore {rid : String} {r : RefundRow}
      (hr : (rid, r) ∈ db.refunds.rows) (ho : r.qrOrderId = oid)
      (hp : r.paymentId = p.id) : Settles db oid o p at_ db
  | duplicate {refunds : Table String RefundRow}
      (hne : o.rzpPaymentId ≠ some p.id)
      (hpaid : o.rzpPaymentId.isSome = true ∨ ¬ o.unpaid)
      (hnew : ∀ x ∈ db.refunds.rows, x.2.qrOrderId = oid →
        x.2.paymentId ≠ p.id)
      (hins : db.refunds.insert? (refundId db oid)
        (newRefund ⟨oid, p.id, p.amount, .duplicate, none, at_⟩) =
          some refunds) :
      Settles db oid o p at_ { db with refunds }
  | billed {db₁ : Db} {no : String} {row : BillRow}
      (hnone : o.rzpPaymentId = none) (hopen : o.unpaid)
      (hmatch : mismatched o p = false)
      (hsold : Sold db (saleOfOrder oid o) at_ db₁ no row)
      (htotal : row.total = o.total)
      (huniq : orderUnique db₁ oid
        (patchOrder o .paid at_ ⟨some p.id, some no, some at_⟩)) :
      Settles db oid o p at_ { db₁ with
        qrOrders := db₁.qrOrders.modify oid fun _ =>
          patchOrder o .paid at_ ⟨some p.id, some no, some at_⟩ }
  | unfulfillable {refunds : Table String RefundRow}
      (hnone : o.rzpPaymentId = none) (hopen : o.unpaid)
      (huniq : orderUnique db oid
        (patchOrder o .refunded at_ ⟨some p.id, none, none⟩))
      (hins : db.refunds.insert? (refundId db oid)
        (newRefund ⟨oid, p.id, p.amount, .unfulfillable, none, at_⟩) =
          some refunds) :
      Settles db oid o p at_ { db with
        qrOrders := db.qrOrders.modify oid fun _ =>
          patchOrder o .refunded at_ ⟨some p.id, none, none⟩
        refunds }

theorem captureSale_ok {db : Db} {oid : String} {o : QrOrderRow}
    {mint : Option String} {at_ : Instant} {db₁ : Db} {no : String}
    {row : BillRow} (h : captureSale db oid o mint at_ = .ok (db₁, no, row)) :
    Sold db (saleOfOrder oid o) at_ db₁ no row ∧ row.total = o.total := by
  simp only [captureSale, bind_ok, assertRule_ok, exists_const, pure_ok] at h
  obtain ⟨⟨_, _, _⟩, hs, ⟨-, htotal⟩, heq⟩ := h
  cases heq
  exact ⟨postSale_ok hs, htotal⟩

/-- A sale that went through, or none and nothing left of it. -/
theorem trySale_ok {db : Db} {oid : String} {o : QrOrderRow}
    {p : GatewayPayment} {mint : Option String} {at_ : Instant}
    {out : Option (Db × String)}
    (h : trySale db oid o p mint at_ = .ok out) :
    out = none ∨ ∃ db₁ no row, out = some (db₁, no) ∧
      mismatched o p = false ∧ Sold db (saleOfOrder oid o) at_ db₁ no row ∧
      row.total = o.total := by
  unfold trySale at h
  split at h
  · exact .inl (pure_ok.1 h).symm
  · next hm =>
      split at h
      · next db₁ no row hs =>
          obtain ⟨hsold, htotal⟩ := captureSale_ok hs
          exact .inr ⟨db₁, no, row, (pure_ok.1 h).symm, by simpa using hm,
            hsold, htotal⟩
      · split at h
        · cases h
        · exact .inl (pure_ok.1 h).symm

theorem settleCapture_ok {db db' : Db} {oid : String} {p : GatewayPayment}
    {mint : Option String} {at_ : Instant}
    (h : settleCapture db oid p mint at_ = .ok db') :
    ∃ o, db.qrOrders.get? oid = some o ∧ Settles db oid o p at_ db' := by
  simp only [settleCapture, bind_ok, orNotFound_ok] at h
  obtain ⟨o, ho, h⟩ := h
  refine ⟨o, ho, ?_⟩
  split at h
  · next hagain =>
      cases pure_ok.1 h
      exact .again hagain
  · next hne =>
      split at h
      · next hpaid =>
          split at h
          · next x hx =>
              cases pure_ok.1 h
              have hmem := List.mem_of_find?_eq_some hx
              have hd := List.find?_some hx
              rw [decide_eq_true_iff] at hd
              exact .refundedBefore hmem hd.1 hd.2
          · next hx =>
              obtain ⟨-, refunds, hins, rfl⟩ := queueRefund_ok h
              refine .duplicate hne ?_ ?_ hins
              · unfold QrOrderRow.unpaid
                rwa [not_or]
              · intro x hmem hxo hxp
                have := List.find?_eq_none.1 hx x hmem
                exact this (decide_eq_true ⟨hxo, hxp⟩)
      · next hopen =>
          rw [not_or, Option.not_isSome_iff_eq_none] at hopen
          obtain ⟨hnone, hst⟩ := hopen
          have hunpaid : o.unpaid := by
            unfold QrOrderRow.unpaid
            tauto
          obtain ⟨sale, hsale, h⟩ := bind_ok.1 h
          rcases trySale_ok hsale with rfl | ⟨db₁, no, row, rfl, hm, hsold, ht⟩
          · obtain ⟨db₂, hmove, h⟩ := bind_ok.1 h
            obtain ⟨-, huniq, rfl⟩ := moveQrOrder_ok hmove
            obtain ⟨-, refunds, hins, rfl⟩ := queueRefund_ok h
            exact .unfulfillable hnone hunpaid huniq hins
          · obtain ⟨-, huniq, rfl⟩ := moveQrOrder_ok h
            exact .billed hnone hunpaid hm hsold ht huniq

end Rch

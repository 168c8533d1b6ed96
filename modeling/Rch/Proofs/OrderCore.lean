import Rch.Proofs.Frame

/-!
# What an order remembers

Of an order's row four things decide how a payment is answered: the gateway's
order, the payment it was settled by, the bill, and whether it still waits.
Most moves of the row keep all four. The rest are an order placed, the
gateway's order put on it once, and its settling; `OrdersMove` lists them, and
what holds of every order follows from the list.
-/

namespace Rch

open Kit

structure OrderCore where
  rzpOrderId : Option String
  rzpPaymentId : Option String
  billNo : Option String
  unpaid : Bool

instance (o : QrOrderRow) : Decidable o.unpaid := by
  unfold QrOrderRow.unpaid
  infer_instance

def QrOrderRow.core (o : QrOrderRow) : OrderCore :=
  ⟨o.rzpOrderId, o.rzpPaymentId, o.billNo, decide o.unpaid⟩

/-- What one operation may do to the orders. -/
inductive OrdersMove (t t' : Table String QrOrderRow) : Prop
  | same (h : t'.view QrOrderRow.core = t.view QrOrderRow.core)
  | placed {id : String} {o : QrOrderRow} (h : t.insert? id o = some t')
      (hcore : o.core = ⟨none, none, none, true⟩)
  | asked {id rz : String} {o : QrOrderRow} (ho : t.get? id = some o)
      (hnone : o.rzpOrderId = none)
      (hfree : ∀ x ∈ t.rows, x.2.rzpOrderId ≠ some rz)
      (h : t' = t.modify id fun o => { o with rzpOrderId := some rz })
  | settled {id pid : String} {o : QrOrderRow} (o' : QrOrderRow)
      (ho : t.get? id = some o)
      (hnone : o.rzpPaymentId = none) (hrz : o'.rzpOrderId = o.rzpOrderId)
      (hpid : o'.rzpPaymentId = some pid)
      (huniq : ∀ x ∈ t.rows, x.1 ≠ id → x.2.rzpPaymentId ≠ some pid ∧
        (o'.billNo.isSome = true → x.2.billNo ≠ o'.billNo))
      (h : t' = t.modify id fun _ => o')

theorem OrdersMove.of_eq {t t' : Table String QrOrderRow} (h : t' = t) :
    OrdersMove t t' := .same (by rw [h])

theorem OrdersMove.refl (t : Table String QrOrderRow) : OrdersMove t t :=
  .of_eq rfl

/-! ## Which operation does which -/

theorem patchOrder_core {o : QrOrderRow} {next : QrOrderStatus}
    (at_ : Instant)
    (h : (next = .awaitingPayment ∨ next = .expired) ↔ o.unpaid) :
    (patchOrder o next at_ .none).core = o.core := by
  have hun : (patchOrder o next at_ .none).unpaid ↔ o.unpaid := h
  simp only [QrOrderRow.core, hun]
  rfl

theorem restatus_core {db : Db} {id : String} {o : QrOrderRow}
    {next : QrOrderStatus} {at_ : Instant} (ho : db.qrOrders.get? id = some o)
    (h : (next = .awaitingPayment ∨ next = .expired) ↔ o.unpaid) :
    (restatus db id next at_).qrOrders.view QrOrderRow.core =
      db.qrOrders.view QrOrderRow.core :=
  Table.view_modify_of_get? ho (patchOrder_core at_ h)

theorem expired_core {db : Db} {id : String} {o : QrOrderRow} {at_ : Instant}
    (ho : db.qrOrders.get? id = some o) (hst : o.status = .awaitingPayment) :
    (restatus db id .expired at_).qrOrders.view QrOrderRow.core =
      db.qrOrders.view QrOrderRow.core := by
  apply restatus_core ho
  unfold QrOrderRow.unpaid
  simp [hst]

theorem stepped_core {db : Db} {id : String} {o : QrOrderRow}
    {next : QrOrderStatus} {at_ : Instant} (ho : db.qrOrders.get? id = some o)
    (h : nextQrStep o.mode o.status = some next) :
    (restatus db id next at_).qrOrders.view QrOrderRow.core =
      db.qrOrders.view QrOrderRow.core := by
  apply restatus_core ho
  obtain ⟨hnow, hnext⟩ := nextQrStep_paid h
  unfold QrOrderRow.unpaid
  rcases hnow with hnow | hnow | hnow | hnow <;>
    rcases hnext with rfl | rfl | rfl | rfl | rfl <;> simp [hnow]

theorem OrderRefunded.orders {db db' : Db} {no : String} {total : Money}
    {at_ : Instant} {bill : BillRow}
    (h : OrderRefunded db no total at_ (orderOfBill db bill) db') :
    db'.qrOrders.view QrOrderRow.core = db.qrOrders.view QrOrderRow.core := by
  generalize horder : orderOfBill db bill = order at h
  cases h with
  | noOrder => rfl
  | unpaid _ => rfl
  | @voided oid pid o refunds hp hst hins =>
      apply Table.view_modify_of_get? (orderOfBill_some horder).2.2
      apply patchOrder_core
      -- a status that may be voided is past the payment
      revert hst
      unfold QrOrderRow.unpaid
      cases o.status <;> decide

theorem Settles.orders {db db' : Db} {oid : String} {o : QrOrderRow}
    {p : GatewayPayment} {at_ : Instant} (ho : db.qrOrders.get? oid = some o)
    (h : Settles db oid o p at_ db') :
    OrdersMove db.qrOrders db'.qrOrders := by
  cases h with
  | again _ => exact .refl _
  | refundedBefore _ _ _ => exact .refl _
  | duplicate _ _ _ _ => exact .refl _
  | unfulfillable hnone _ huniq _ =>
      exact .settled (patchOrder o .refunded at_ ⟨some p.id, none, none⟩) ho
        hnone rfl rfl (fun x hx hne => (huniq x hx hne).imp_left fun h => h rfl)
        rfl
  | @billed db₁ no _ hnone _ _ hsold _ huniq =>
      obtain ⟨cells, moves, -, -, -, seq, sessions, hdb⟩ := hsold.exists_moves
      have hsame : db₁.qrOrders = db.qrOrders := by rw [hdb]
      refine .settled
        (patchOrder o .paid at_ ⟨some p.id, some no, some at_⟩) ho hnone rfl
        rfl (fun x hx hne => ?_) ?_
      · rw [← hsame] at hx
        exact (huniq x hx hne).imp_left fun h => h rfl
      · dsimp only
        rw [hsame]

theorem Op.ordersMove {op : Op} {db db' : Db} (h : op.run db = some db') :
    OrdersMove db.qrOrders db'.qrOrders := by
  by_cases hp : .gateway ∈ op.touches
  case neg => exact .of_eq (op.frame h hp).1
  cases op <;> simp only [Op.run, toOption_eq_some, Op.touches,
    List.mem_cons, List.not_mem_nil, or_false, reduceCtorEq] at h hp
  case voidBill =>
    obtain ⟨bill, stamp, -, -, -, hr⟩ := voidBill_ok h
    exact .same hr.orders
  case settleCapture =>
    obtain ⟨o, ho, hs⟩ := settleCapture_ok h
    exact hs.orders ho
  case placeOrder =>
    obtain ⟨id, o, qrOrders, seq, hins, hst, hrz, hpid, hno, -, rfl⟩ :=
      placeOrder_ok h
    refine .placed hins ?_
    simp [QrOrderRow.core, QrOrderRow.unpaid, hst, hrz, hpid, hno]
  case setRzpOrder =>
    obtain rfl | ⟨o, ho, hnone, hfree, rfl⟩ := setRzpOrder_ok h
    · exact .refl _
    · exact .asked ho hnone hfree rfl
  case refuseCheckout =>
    obtain rfl | ⟨o, ho, hst, rfl⟩ := refuseCheckout_ok h
    · exact .refl _
    · exact .same (expired_core ho hst)
  case setQrStatus =>
    obtain ⟨o, ho, hstep, -, rfl⟩ := setQrStatus_ok h
    exact .same (stepped_core ho hstep)
  case expireOrders =>
    refine .same (expireOrders_induct (P := fun db₁ =>
      db₁.qrOrders.view QrOrderRow.core = db.qrOrders.view QrOrderRow.core)
      ?_ rfl h)
    intro db₁ id o hsame ho hst
    exact (expired_core ho hst).trans hsame
  case claimRefunds =>
    obtain ⟨refunds, -, rfl⟩ := claimDueRefunds_moved h
    exact .refl _
  case recordSend =>
    obtain ⟨refunds, -, rfl⟩ := recordSend_moved h
    exact .refl _
  case recordFailure =>
    obtain ⟨refunds, -, rfl⟩ := recordFailure_moved h
    exact .refl _
  case settleRefund =>
    obtain ⟨refunds, -, rfl⟩ := settleRefund_moved h
    exact .refl _
  case retryRefund =>
    obtain ⟨refunds, -, rfl⟩ := retryRefund_moved h
    exact .refl _

/-! ## What follows for every order -/

/-- A gateway's order is one of ours, and an order nobody paid has no bill and
is still open to be paid. -/
structure OrdersKept (t : Table String QrOrderRow) : Prop where
  rzpOrders : ∀ x o y o' rz, t.get? x = some o → t.get? y = some o' →
    o.rzpOrderId = some rz → o'.rzpOrderId = some rz → x = y
  unsettled : t.All fun _ o => o.rzpPaymentId = none →
    o.unpaid ∧ o.billNo = none

section View

variable {t t' : Table String QrOrderRow}

theorem get?_of_view (h : t'.view QrOrderRow.core = t.view QrOrderRow.core)
    {id : String} {o' : QrOrderRow} (ho : t'.get? id = some o') :
    ∃ o, t.get? id = some o ∧ o.core = o'.core := by
  have hl := t'.lookup_view QrOrderRow.core id
  rw [h, t.lookup_view, ho, Option.map_some] at hl
  exact Option.map_eq_some_iff.1 hl

theorem OrdersMove.kept (h : OrdersMove t t') (hk : OrdersKept t) :
    OrdersKept t' := by
  cases h with
  | same hv =>
      refine ⟨?_, ?_⟩
      · intro x o y o' rz hx hy hrx hry
        obtain ⟨a, ha, hca⟩ := get?_of_view hv hx
        obtain ⟨b, hb, hcb⟩ := get?_of_view hv hy
        have hra := congrArg OrderCore.rzpOrderId hca
        have hrb := congrArg OrderCore.rzpOrderId hcb
        exact hk.rzpOrders x a y b rz ha hb (hra.trans hrx) (hrb.trans hry)
      · intro x o hx hnone
        obtain ⟨a, ha, hca⟩ := get?_of_view hv hx
        have hun := congrArg OrderCore.unpaid hca
        have hbill := congrArg OrderCore.billNo hca
        have hpaid := congrArg OrderCore.rzpPaymentId hca
        obtain ⟨hu, hb⟩ := hk.unsettled x a ha (hpaid.trans hnone)
        exact ⟨by simpa [QrOrderRow.core, hu] using hun, hbill.symm.trans hb⟩
  | @placed id o₀ hins hcore =>
      have hrz := congrArg OrderCore.rzpOrderId hcore
      refine ⟨?_, hk.unsettled.insert hins fun _ => ⟨?_, ?_⟩⟩
      · intro x o y o' rz hx hy hrx hry
        rw [Table.get?_insert hins] at hx hy
        split at hx
        · cases hx
          cases hrz.symm.trans hrx
        · split at hy
          · cases hy
            cases hrz.symm.trans hry
          · exact hk.rzpOrders x o y o' rz hx hy hrx hry
      · exact of_decide_eq_true (congrArg OrderCore.unpaid hcore)
      · exact congrArg OrderCore.billNo hcore
  | @asked id rz₀ o₀ ho hnone hfree heq =>
      subst heq
      refine ⟨?_, Table.All.modify hk.unsettled fun _ _ hr => hr⟩
      intro x o y o' rz hx hy hrx hry
      rw [Table.get?_modify] at hx hy
      split at hx
      · next hxid =>
          split at hy
          · next hyid => exact hxid.trans hyid.symm
          · obtain ⟨a, ha, rfl⟩ := Option.map_eq_some_iff.1 hx
            cases hrx
            exact absurd hry (hfree _ (Table.get?_eq_some.1 hy))
      · split at hy
        · obtain ⟨a, ha, rfl⟩ := Option.map_eq_some_iff.1 hy
          cases hry
          exact absurd hrx (hfree _ (Table.get?_eq_some.1 hx))
        · exact hk.rzpOrders x o y o' rz hx hy hrx hry
  | @settled id pid o₀ o₁ ho hnone hrz hpid _ heq =>
      subst heq
      have hback {x : String} {o : QrOrderRow}
          (hx : (t.modify id fun _ => o₁).get? x = some o) :
          ∃ a, t.get? x = some a ∧ a.rzpOrderId = o.rzpOrderId := by
        rw [Table.get?_modify] at hx
        split at hx
        · next hxid =>
            subst hxid
            rw [ho] at hx
            cases hx
            exact ⟨o₀, ho, hrz.symm⟩
        · exact ⟨o, hx, rfl⟩
      refine ⟨?_, Table.All.modify hk.unsettled fun _ _ _ hn => ?_⟩
      · intro x o y o' rz hx hy hrx hry
        obtain ⟨a, ha, hra⟩ := hback hx
        obtain ⟨b, hb, hrb⟩ := hback hy
        exact hk.rzpOrders x a y b rz ha hb (hra.trans hrx) (hrb.trans hry)
      · cases hpid.symm.trans hn

/-- The order a gateway's order was opened for, by its number. -/
def orderOf (t : Table String QrOrderRow) (rz : String) : Option String :=
  (t.rows.find? fun o => decide (o.2.rzpOrderId = some rz)).map Prod.fst

theorem orderOf_eq_view (t : Table String QrOrderRow) (rz : String) :
    orderOf t rz = ((t.view QrOrderRow.core).find? fun o =>
      decide (o.2.rzpOrderId = some rz)).map Prod.fst := by
  unfold orderOf Table.view
  rw [List.find?_map, Option.map_map]
  rfl

theorem orderOf_some {id rz : String} (h : orderOf t rz = some id) :
    ∃ o, t.get? id = some o ∧ o.rzpOrderId = some rz := by
  obtain ⟨x, hx, rfl⟩ := Option.map_eq_some_iff.1 h
  exact ⟨x.2, Table.get?_eq_some.2 (List.mem_of_find?_eq_some hx),
    by simpa using List.find?_some hx⟩

/-- A rewrite that leaves the gateway's order alone is found as before. -/
theorem orderOf_modify {id : String} {o : QrOrderRow}
    (ho : t.get? id = some o) (o' : QrOrderRow)
    (h : o'.rzpOrderId = o.rzpOrderId) :
    orderOf (t.modify id fun _ => o') = orderOf t := by
  funext rz
  have hview := Table.view_modify_of_get? ho (u := fun _ => o')
    (f := QrOrderRow.rzpOrderId) h
  have hfind : ∀ t : Table String QrOrderRow, orderOf t rz =
      ((t.view QrOrderRow.rzpOrderId).find? fun o =>
        decide (o.2 = some rz)).map Prod.fst := by
    intro t
    unfold orderOf Table.view
    rw [List.find?_map, Option.map_map]
    rfl
  rw [hfind, hfind, hview]

/-- Where no gateway's order is shared, the row that carries it is the one
found. -/
theorem OrdersKept.orderOf_eq (hk : OrdersKept t) {id rz : String}
    {o : QrOrderRow} (ho : t.get? id = some o) (hrz : o.rzpOrderId = some rz) :
    orderOf t rz = some id := by
  cases hf : orderOf t rz with
  | none =>
      rw [orderOf, Option.map_eq_none_iff, List.find?_eq_none] at hf
      exact absurd (decide_eq_true hrz) (hf _ (Table.get?_eq_some.1 ho))
  | some x =>
      obtain ⟨o', ho', hrz'⟩ := orderOf_some hf
      rw [hk.rzpOrders x o' id o rz ho' ho hrz' hrz]

theorem OrdersMove.rzpOrder (h : OrdersMove t t') {id rz : String}
    {o : QrOrderRow} (ho : t.get? id = some o) (hrz : o.rzpOrderId = some rz) :
    ∃ o', t'.get? id = some o' ∧ o'.rzpOrderId = some rz := by
  cases h with
  | same hv =>
      obtain ⟨o', ho', hc⟩ := get?_of_view hv.symm ho
      exact ⟨o', ho', (congrArg OrderCore.rzpOrderId hc).trans hrz⟩
  | @placed x o₀ hins _ =>
      refine ⟨o, ?_, hrz⟩
      have hne : id ≠ x := by
        rintro rfl
        rw [(Table.insert?_eq_some hins).1] at ho
        cases ho
      rw [Table.get?_insert hins, if_neg hne]
      exact ho
  | @asked x rz₀ o₀ hx hnone _ heq =>
      subst heq
      refine ⟨o, ?_, hrz⟩
      have hne : id ≠ x := by
        rintro rfl
        cases hx.symm.trans ho
        cases hnone.symm.trans hrz
      rw [Table.get?_modify_ne _ _ hne]
      exact ho
  | @settled x pid o₀ o₁ hx _ hrz₁ _ _ heq =>
      subst heq
      by_cases hid : id = x
      · subst hid
        cases hx.symm.trans ho
        refine ⟨o₁, ?_, hrz₁.trans hrz⟩
        rw [Table.get?_modify_self, ho, Option.map_some]
      · refine ⟨o, ?_, hrz⟩
        rw [Table.get?_modify_ne _ _ hid]
        exact ho

end View

/-! ## One payment and one bill, one order -/

/-- No two orders were settled by one payment, or carry one bill. -/
def OrdersApart (t : Table String QrOrderRow) : Prop :=
  ∀ x o y o', t.get? x = some o → t.get? y = some o' → x ≠ y →
    (o.rzpPaymentId.isSome = true → o'.rzpPaymentId ≠ o.rzpPaymentId) ∧
    (o.billNo.isSome = true → o'.billNo ≠ o.billNo)

/-- Only what the rows remember is compared. -/
theorem OrdersApart.of_core {t t' : Table String QrOrderRow}
    (ha : OrdersApart t)
    (h : ∀ x o', t'.get? x = some o' → ∃ o, t.get? x = some o ∧
      o.rzpPaymentId = o'.rzpPaymentId ∧ o.billNo = o'.billNo) :
    OrdersApart t' := by
  intro x o y o' hx hy hne
  obtain ⟨a, ha', hpa, hba⟩ := h x o hx
  obtain ⟨b, hb', hpb, hbb⟩ := h y o' hy
  rw [← hpa, ← hpb, ← hba, ← hbb]
  exact ha x a y b ha' hb' hne

theorem OrdersMove.apart {t t' : Table String QrOrderRow}
    (h : OrdersMove t t') (ha : OrdersApart t) : OrdersApart t' := by
  cases h with
  | same hv =>
      refine ha.of_core fun x o' hx => ?_
      obtain ⟨o, ho, hcore⟩ := get?_of_view hv hx
      exact ⟨o, ho, congrArg OrderCore.rzpPaymentId hcore,
        congrArg OrderCore.billNo hcore⟩
  | @placed id o₀ hins hcore =>
      have hpaid : o₀.rzpPaymentId = none := congrArg OrderCore.rzpPaymentId hcore
      have hbill : o₀.billNo = none := congrArg OrderCore.billNo hcore
      intro x o y o' hx hy hne
      rw [Table.get?_insert hins] at hx hy
      split at hx
      · cases hx
        rw [hpaid, hbill]
        exact ⟨fun h => absurd h Bool.false_ne_true,
          fun h => absurd h Bool.false_ne_true⟩
      · split at hy
        · cases hy
          rw [hpaid, hbill]
          refine ⟨fun h e => ?_, fun h e => ?_⟩
          · rw [← e] at h
            cases h
          · rw [← e] at h
            cases h
        · exact ha x o y o' hx hy hne
  | @asked id rz o₀ ho hnone hfree heq =>
      subst heq
      refine ha.of_core fun x o' hx => ?_
      rw [Table.get?_modify] at hx
      split at hx
      · obtain ⟨a, hxa, rfl⟩ := Option.map_eq_some_iff.1 hx
        exact ⟨a, hxa, rfl, rfl⟩
      · exact ⟨o', hx, rfl, rfl⟩
  | @settled id pid o₀ o₁ ho hnone hrz hpid huniq heq =>
      subst heq
      intro x o y o' hx hy hne
      rw [Table.get?_modify_of_get? ho] at hx hy
      split at hx
      · next hxid =>
          cases hx
          rw [if_neg fun hyid => hne (hxid.trans hyid.symm)] at hy
          obtain ⟨hp, hb⟩ := huniq (y, o') (Table.get?_eq_some.1 hy)
            fun hyid => hne (hxid.trans hyid.symm)
          rw [hpid]
          exact ⟨fun _ => hp, hb⟩
      · next hxid =>
          split at hy
          · cases hy
            obtain ⟨hp, hb⟩ := huniq (x, o) (Table.get?_eq_some.1 hx) hxid
            rw [hpid]
            refine ⟨fun _ e => hp e.symm, fun hsome e => ?_⟩
            rw [← e] at hsome
            exact hb hsome e.symm
          · exact ha x o y o' hx hy hne

theorem ordersApart_reach {db : Db} (h : server.Reach db) :
    OrdersApart db.qrOrders := by
  refine h.invariant ?_ fun db op db' _ hi hs => (op.ordersMove hs).apart hi
  rintro db ⟨rows, rfl⟩
  exact fun _ _ _ _ hx => by simp [Db.fresh] at hx

theorem ordersKept_reach {db : Db} (h : server.Reach db) :
    OrdersKept db.qrOrders := by
  refine h.invariant ?_ fun db op db' _ hi hs => (op.ordersMove hs).kept hi
  rintro db ⟨rows, rfl⟩
  exact ⟨fun _ _ _ _ _ hx => by simp [Db.fresh] at hx, Table.all_empty _⟩

end Rch

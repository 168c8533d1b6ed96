import Rch.Machine.Voids
import Rch.Proofs.OrderCore
import Rch.Proofs.SaleMoves
import Rch.Proofs.SettledBills

/-!
# A void, statement by statement, is the void at once

What a void has read still holds when it commits. The bill and the order are
locked alone and the outlet and the session shared, so nobody has changed them;
nobody can have settled the bill, because a settlement's line refers to it; and
the sale in the ledger is not added to. So a void that commits leaves exactly
what the whole operation, run at once on what is committed then, would leave,
and every committed state is one the server reaches.
-/

namespace Rch

open Kit

/-! ## The rules of a void -/

/-- A void of this bill passes every rule. -/
structure Voidable (db : Db) (claims : Claims) (no reason : String)
    (at_ : Instant) (bill : BillRow) : Prop where
  found : db.bills.get? no = some bill
  others : bill.operatorId ≠ claims.sub
  reason : trim reason ≠ ""
  unvoided : bill.voided = none
  day : istDate bill.at_ = istDate at_
  unsettled : liveSettlementOf db no = none
  outlet : ∃ outlet, db.rows.locations bill.loc = some outlet ∧
    outlet.active = true
  session : (bill.sessionId.bind db.sessions.get?).bind SessionRow.closedAt = none

def unsold (db : Db) (claims : Claims) (no reason : String) (at_ : Instant) :
    Db :=
  { db with
    stock := postMoves db.stock (voidMoves db no claims.sub at_)
    bills := db.bills.modify no (stampBill ⟨at_, claims.sub, trim reason⟩) }

theorem voidBill_iff {db db' : Db} {claims : Claims} {no reason : String}
    {at_ : Instant} : voidBill db claims no reason at_ = .ok db' ↔
      ∃ bill, Voidable db claims no reason at_ bill ∧
        refundOrder (unsold db claims no reason at_) (orderOfBill db bill) no
          bill.total at_ = .ok db' := by
  simp only [voidBill, bind_ok, orNotFound_ok, guardOr_ok, assertRule_ok,
    lockLocation_ok, assertOpen_ok, exists_const]
  constructor
  · rintro ⟨bill, hb, hop, hreason, hlive, hday, hpaid, outlet, hloc, hopen,
      hshut, h⟩
    exact ⟨bill, ⟨hb, hop, hreason, hlive, hday, hpaid, ⟨outlet, hloc, hopen⟩,
      hshut⟩, h⟩
  · rintro ⟨bill, hv, h⟩
    obtain ⟨outlet, hloc, hopen⟩ := hv.outlet
    exact ⟨bill, hv.found, hv.others, hv.reason, hv.unvoided, hv.day,
      hv.unsettled, outlet, hloc, hopen, hv.session, h⟩

def RefundGoes (db : Db) (total : Money) (at_ : Instant) (oid : String)
    (o : QrOrderRow) : Prop :=
  o.rzpPaymentId.isSome = true → .voided ∈ qrOrderTransitions o.status ∧
    orderUnique db oid (patchOrder o .voided at_ .none) ∧ 0 < total ∧
    db.refunds.get? (refundId db oid) = none

theorem refundOrder_goes {db : Db} {order : Option (String × QrOrderRow)}
    {no : String} {total : Money} {at_ : Instant} :
    (∃ db', refundOrder db order no total at_ = .ok db') ↔
      ∀ oid o, order = some (oid, o) → RefundGoes db total at_ oid o := by
  unfold refundOrder
  cases order with
  | none =>
      exact ⟨fun _ _ _ h => absurd h.symm (Option.some_ne_none _),
        fun _ => ⟨db, rfl⟩⟩
  | some p =>
      obtain ⟨oid, o⟩ := p
      dsimp only
      split
      · next hp =>
          refine ⟨fun _ oid' o' h hsome => ?_, fun _ => ⟨db, rfl⟩⟩
          cases h
          rw [hp] at hsome
          cases hsome
      · next pid hp =>
          simp only [bind_ok, moveQrOrder, assertTransition_ok, guardOr_ok,
            queueRefund, orInternal_ok, exists_const, pure_ok]
          constructor
          · rintro ⟨db', db₁, ⟨hst, huniq, rfl⟩, hpos, refunds, hins, -⟩ oid' o' h -
            cases h
            exact ⟨hst, huniq, hpos, (Table.insert?_eq_some hins).1⟩
          · intro h
            obtain ⟨hst, huniq, hpos, hfree⟩ := h oid o rfl (by rw [hp]; rfl)
            obtain ⟨refunds, hins⟩ := Table.insert?_of_free hfree (newRefund
              ⟨oid, pid, total, .void, some no, at_⟩)
            exact ⟨_, _, ⟨hst, huniq, rfl⟩, hpos, refunds, hins, rfl⟩

/-! ## What a void holds, and what it knows -/

/-- The locks a void has once it holds the order. -/
def HoldsBill (held : List (Lock VoidKey)) (no : String) (bill : BillRow) :
    Prop :=
  ⟨.bill no, .update⟩ ∈ held ∧
    ∀ o, orderBehind bill = some o → ⟨.order o, .update⟩ ∈ held

/-- What it knows once nobody has settled the bill. -/
structure Judged (db : Db) (a : VoidAsk) (r : VoidRead) : Prop where
  found : db.bills.get? a.no = some r.bill
  order : r.order = orderOfBill db r.bill
  others : r.bill.operatorId ≠ a.claims.sub
  reason : trim a.reason ≠ ""
  unvoided : r.bill.voided = none
  day : istDate r.bill.at_ = istDate r.at_
  unsettled : Unsettled db a.no

def OutletOpen (db : Db) (r : VoidRead) : Prop :=
  ∃ outlet, db.rows.locations r.bill.loc = some outlet ∧ outlet.active = true

def SessionOpen (db : Db) (r : VoidRead) : Prop :=
  (r.bill.sessionId.bind db.sessions.get?).bind SessionRow.closedAt = none

/-- Every lock but the refund's, and every rule passed. -/
structure Cleared (db : Db) (held : List (Lock VoidKey)) (a : VoidAsk)
    (r : VoidRead) : Prop where
  holds : HoldsBill held a.no r.bill
  outlet : ⟨.outlet r.bill.loc, .share⟩ ∈ held
  session : ∀ s, r.bill.sessionId = some s → ⟨.session s, .share⟩ ∈ held
  judged : Judged db a r
  outletOpen : OutletOpen db r
  sessionOpen : SessionOpen db r

/-- Step by step, what a void has done to what is committed. -/
def VoidShaped (db : Db) (x : Tx Db VoidKey VoidTx) : VoidAt → Prop
  | .begun => x.write = id
  | .found bill =>
      ⟨.bill x.at_.ask.no, .update⟩ ∈ x.held ∧
        db.bills.get? x.at_.ask.no = some bill ∧ x.write = id
  | .ordered bill order =>
      HoldsBill x.held x.at_.ask.no bill ∧ db.bills.get? x.at_.ask.no = some bill ∧
        order = orderOfBill db bill ∧ x.write = id
  | .unsettled r =>
      HoldsBill x.held x.at_.ask.no r.bill ∧ Judged db x.at_.ask r ∧ x.write = id
  | .placed r =>
      HoldsBill x.held x.at_.ask.no r.bill ∧
        ⟨.outlet r.bill.loc, .share⟩ ∈ x.held ∧ Judged db x.at_.ask r ∧
        OutletOpen db r ∧ x.write = id
  | .held r => Cleared db x.held x.at_.ask r ∧ x.write = id
  | .counted r sale =>
      Cleared db x.held x.at_.ask r ∧ sale = saleMovesOf db x.at_.ask.no ∧ x.write = id
  | .posted r =>
      Cleared db x.held x.at_.ask r ∧
        x.write = x.at_.ask.post r (saleMovesOf db x.at_.ask.no)
  | .stamped r =>
      Cleared db x.held x.at_.ask r ∧
        x.write = x.at_.ask.stamp r ∘ x.at_.ask.post r (saleMovesOf db x.at_.ask.no)
  | .undone r =>
      Cleared db x.held x.at_.ask r ∧
        (∀ id, refundNo db r.order = some id → ⟨.refund id, .update⟩ ∈ x.held) ∧
        (∃ db', x.at_.ask.moved r
          (unsold db x.at_.ask.claims x.at_.ask.no x.at_.ask.reason r.at_) = .ok db') ∧
        x.write = x.at_.ask.refund r ∘ x.at_.ask.stamp r ∘
          x.at_.ask.post r (saleMovesOf db x.at_.ask.no)

def VoidOk (db : Db) (x : Tx Db VoidKey VoidTx) : Prop :=
  VoidShaped db x x.at_.p

section Runs

variable {db : Db} {x : Tx Db VoidKey VoidTx} {at_ : Instant}

theorem orderOfBill_congr {db' : Db} {bill : BillRow}
    (h : ∀ o, orderBehind bill = some o →
      db'.qrOrders.get? o = db.qrOrders.get? o) :
    orderOfBill db' bill = orderOfBill db bill := by
  unfold orderOfBill
  unfold orderBehind at h
  split
  · next hqr =>
      rw [if_pos hqr] at h
      cases ho : bill.qrOrderId with
      | none => rfl
      | some o => rw [Option.bind_some, Option.bind_some, h o ho]
  · rfl

/-- A void with every rule behind it would pass if it ran at once. -/
theorem Cleared.voidable {held : List (Lock VoidKey)} {a : VoidAsk} {r : VoidRead}
    (h : Cleared db held a r) :
    Voidable db a.claims a.no a.reason r.at_ r.bill where
  found := h.judged.found
  others := h.judged.others
  reason := h.judged.reason
  unvoided := h.judged.unvoided
  day := h.judged.day
  unsettled := liveSettlementOf_eq_none.2 h.judged.unsettled
  outlet := h.outletOpen
  session := h.sessionOpen

theorem refundNo_congr {db' : Db} {order : Option (String × QrOrderRow)}
    (h : ∀ oid o, order = some (oid, o) → refundId db' oid = refundId db oid) :
    refundNo db' order = refundNo db order := by
  cases order with
  | none => rfl
  | some p =>
      obtain ⟨oid, o⟩ := p
      change o.rzpPaymentId.map _ = o.rzpPaymentId.map _
      rw [h oid o rfl]

/-- What a transaction that has written nothing sees is what is committed. -/
theorem view_of_id {write : Db → Db} (h : write = id) : write db = db := by
  rw [h]
  rfl

theorem VoidOk.runs {st : VoidStmt} (h : VoidOk db x)
    (hs : x.at_.stmt at_ (x.write db) = some st) : VoidOk db (x.after st) := by
  obtain ⟨⟨⟨claims, no, reason⟩, p⟩, held, write⟩ := x
  cases p <;> simp only [VoidOk, VoidShaped, VoidTx.stmt] at h hs
  case begun =>
    rw [view_of_id h] at hs
    obtain ⟨bill, hb, rfl⟩ := Option.map_eq_some_iff.1 hs
    refine ⟨List.mem_cons_self .., hb, ?_⟩
    rw [h]
    rfl
  case found bill =>
    obtain ⟨hlock, hb, hw⟩ := h
    rw [view_of_id hw] at hs
    cases hs
    refine ⟨⟨List.mem_append_right _ hlock, fun o ho => ?_⟩, hb, rfl, hw⟩
    refine List.mem_append_left _ (List.mem_map_of_mem ?_)
    rw [ho]
    exact List.mem_singleton_self o
  case ordered bill order =>
    obtain ⟨hholds, hb, horder, hw⟩ := h
    rw [view_of_id hw] at hs
    split at hs
    · next hrules =>
        cases hs
        obtain ⟨hop, hreason, hlive, hday, hpaid⟩ := hrules
        exact ⟨hholds, ⟨hb, horder, hop, hreason, hlive, hday,
          liveSettlementOf_eq_none.1 hpaid⟩, hw⟩
    · cases hs
  case unsettled r =>
    obtain ⟨hholds, hj, hw⟩ := h
    rw [view_of_id hw] at hs
    obtain ⟨outlet, ho, rfl⟩ := Option.map_eq_some_iff.1 hs
    obtain ⟨hloc, hopen⟩ := Option.filter_eq_some_iff.1 ho
    refine ⟨⟨List.mem_cons_of_mem _ hholds.1, fun o ho' =>
      List.mem_cons_of_mem _ (hholds.2 o ho')⟩, List.mem_cons_self .., hj,
      ⟨outlet, hloc, hopen⟩, ?_⟩
    rw [hw]
    rfl
  case placed r =>
    obtain ⟨hholds, hout, hj, hopen, hw⟩ := h
    rw [view_of_id hw] at hs
    split at hs
    · next hshut =>
        cases hs
        refine ⟨⟨⟨List.mem_append_right _ hholds.1, fun o ho =>
          List.mem_append_right _ (hholds.2 o ho)⟩, List.mem_append_right _ hout,
          fun s hs => ?_, hj, hopen, hshut⟩, hw⟩
        refine List.mem_append_left _ (List.mem_map_of_mem ?_)
        rw [hs]
        exact List.mem_singleton_self s
    · cases hs
  case held r =>
    obtain ⟨hc, hw⟩ := h
    rw [view_of_id hw] at hs
    cases hs
    exact ⟨hc, rfl, hw⟩
  case counted r sale =>
    obtain ⟨hc, rfl, hw⟩ := h
    cases hs
    refine ⟨hc, ?_⟩
    rw [Tx.after, hw]
    rfl
  case posted r =>
    obtain ⟨hc, hw⟩ := h
    cases hs
    refine ⟨⟨⟨List.mem_cons_of_mem _ hc.holds.1, fun o ho =>
      List.mem_cons_of_mem _ (hc.holds.2 o ho)⟩, List.mem_cons_of_mem _ hc.outlet,
      fun s hs => List.mem_cons_of_mem _ (hc.session s hs), hc.judged,
      hc.outletOpen, hc.sessionOpen⟩, ?_⟩
    rw [Tx.after, hw]
    rfl
  case stamped r =>
    obtain ⟨hc, hw⟩ := h
    obtain ⟨db', hm, rfl⟩ := Option.map_eq_some_iff.1 hs
    rw [toOption_eq_some, hw] at hm
    refine ⟨⟨⟨List.mem_append_right _ hc.holds.1, fun o ho =>
      List.mem_append_right _ (hc.holds.2 o ho)⟩,
      List.mem_append_right _ hc.outlet,
      fun s hs => List.mem_append_right _ (hc.session s hs), hc.judged,
      hc.outletOpen, hc.sessionOpen⟩, fun id hid => ?_, ⟨db', hm⟩, ?_⟩
    · have hno : refundNo (write db) r.order = refundNo db r.order := by
        rw [hw]
        exact refundNo_congr fun _ _ _ => rfl
      refine List.mem_append_left _ (List.mem_map_of_mem ?_)
      rw [hno, hid]
      exact List.mem_singleton_self id
    · rw [Tx.after, hw]
      rfl
  case undone r => cases hs

end Runs

/-! ## What others write leaves it so -/

def LinesHeaded (db : Db) : Prop :=
  ∀ sid no amount, db.settlementLines.get? (sid, no) = some amount →
    (db.settlements.get? sid).isSome = true

/-- What an operation may do to the settlements. -/
inductive SettlementsMove (db db' : Db) : Prop
  | same (h : db'.settlements = db.settlements)
      (hl : db'.settlementLines = db.settlementLines)
  | recorded {id : String} {row : SettlementRow} {lines : List SettlementLine}
      (h : db.settlements.insert? id row = some db'.settlements)
      (hl : insertSettlementLines db.settlementLines id lines =
        some db'.settlementLines)
  | voided {id : String} {stamp : VoidStamp}
      (h : db'.settlements = db.settlements.modify id (stampSettlement stamp))
      (hl : db'.settlementLines = db.settlementLines)

theorem Op.settlementsMove {op : Op} {db db' : Db} (h : op.run db = some db') :
    SettlementsMove db db' := by
  by_cases hp : .credit ∈ op.touches
  case neg => exact .same (op.frame h hp).2.1 (op.frame h hp).2.2
  cases op <;> simp only [Op.run, toOption_eq_some, Op.touches,
    List.mem_cons, List.not_mem_nil, or_false, reduceCtorEq] at h hp
  case pay =>
    obtain ⟨no, row, hs⟩ := pay_ok h
    exact .same hs.settlements.1 hs.settlements.2
  case voidBill =>
    obtain ⟨bill, stamp, -, -, -, hr⟩ := voidBill_ok h
    have hsame := hr.same .credit (by decide)
    exact .same hsame.2.1 hsame.2.2
  case settleCapture =>
    obtain ⟨o, -, hs⟩ := settleCapture_ok h
    cases hs with
    | again _ => exact .same rfl rfl
    | refundedBefore _ _ _ => exact .same rfl rfl
    | duplicate _ _ _ _ => exact .same rfl rfl
    | unfulfillable _ _ _ _ => exact .same rfl rfl
    | billed _ _ _ hsold _ _ =>
        exact .same hsold.settlements.1 hsold.settlements.2
  case recordSettlement =>
    obtain ⟨id, row, lines, settlements, settlementLines, -, -, -, -, -, -, hs,
      hl, rfl⟩ := recordSettlement_ok h
    exact .recorded hs hl
  case voidSettlement =>
    obtain ⟨row, stamp, -, -, rfl⟩ := voidSettlement_ok h
    exact .voided rfl rfl

theorem SettlementsMove.headed {db db' : Db} (h : SettlementsMove db db')
    (hh : LinesHeaded db) : LinesHeaded db' := by
  intro sid no amount hl
  cases h with
  | same hs hlines =>
      rw [hlines] at hl
      rw [hs]
      exact hh sid no amount hl
  | @recorded id row lines hs hlines =>
      rw [Table.get?_insert hs]
      split
      · rfl
      · next hne =>
          rw [Table.get?_eq_some, insertSettlementLines_rows hlines] at hl
          rcases List.mem_append.1 hl with hl | hl
          · exact hh sid no amount (Table.get?_eq_some.2 hl)
          · obtain ⟨l, -, heq⟩ := List.mem_map.1 hl
            cases heq
            exact absurd rfl hne
  | voided hs hlines =>
      rw [hlines] at hl
      rw [hs, Table.isSome_modify]
      exact hh sid no amount hl

theorem linesHeaded_reach {db : Db} (h : server.Reach db) : LinesHeaded db := by
  refine h.invariant ?_ fun db op db' _ hi hs => op.settlementsMove hs |>.headed hi
  rintro db ⟨rows, rfl⟩
  exact fun _ _ _ hl => absurd hl.symm (Option.some_ne_none _)

theorem mem_settlementsOn {db : Db} {no sid : String} :
    sid ∈ settlementsOn db no ↔
      ∃ amount, db.settlementLines.get? (sid, no) = some amount := by
  simp only [settlementsOn, List.mem_map, List.mem_filter, decide_eq_true_eq,
    Table.get?_eq_some]
  constructor
  · rintro ⟨⟨⟨sid, no⟩, amount⟩, ⟨hl, rfl⟩, rfl⟩
    exact ⟨amount, hl⟩
  · rintro ⟨amount, hl⟩
    exact ⟨((sid, no), amount), ⟨hl, rfl⟩, rfl⟩

/-- A settlement is voided or added, and one that is voided stays so. -/
theorem SettlementsMove.unsettled {db db' : Db} (h : SettlementsMove db db')
    (hh : LinesHeaded db) {no : String} (hu : Unsettled db no)
    (hl : settlementsOn db' no = settlementsOn db no) : Unsettled db' no := by
  intro sid amount hline s hs
  have hmem : sid ∈ settlementsOn db no := by
    rw [← hl]
    exact mem_settlementsOn.2 ⟨amount, hline⟩
  obtain ⟨amount₀, hline₀⟩ := mem_settlementsOn.1 hmem
  cases h with
  | same h _ =>
      rw [h] at hs
      exact hu sid amount₀ hline₀ s hs
  | @recorded id row lines h _ =>
      have hhead := hh sid no amount₀ hline₀
      have hne : sid ≠ id := by
        rintro rfl
        rw [(Table.insert?_eq_some h).1] at hhead
        cases hhead
      rw [Table.get?_insert h, if_neg hne] at hs
      exact hu sid amount₀ hline₀ s hs
  | @voided id stamp h _ =>
      rw [h, Table.get?_modify] at hs
      split at hs
      · obtain ⟨s₀, -, rfl⟩ := Option.map_eq_some_iff.1 hs
        exact Option.some_ne_none _
      · exact hu sid amount₀ hline₀ s hs

section Left

variable {op : Op} {db db' : Db} {held : List (Lock VoidKey)} {a : VoidAsk}
variable {r : VoidRead}

def AllLeft (db db' : Db) (held : List (Lock VoidKey)) : Prop :=
  ∀ l ∈ held, l.on.left db db' = true

theorem AllLeft.bill (hl : AllLeft db db' held) {no : String} {m : RowLock}
    (h : ⟨.bill no, m⟩ ∈ held) : db'.bills.get? no = db.bills.get? no ∧
      settlementsOn db' no = settlementsOn db no := by
  simpa [VoidKey.left] using hl _ h

theorem AllLeft.order (hl : AllLeft db db' held) {id : String} {m : RowLock}
    (h : ⟨.order id, m⟩ ∈ held) : db'.qrOrders.get? id = db.qrOrders.get? id ∧
      refundId db' id = refundId db id := by
  have hleft := hl _ h
  simp only [VoidKey.left, Bool.and_eq_true, decide_eq_true_eq] at hleft
  refine ⟨hleft.1, ?_⟩
  have hlen := congrArg List.length hleft.2
  rw [List.length_map, List.length_map] at hlen
  rw [refundId, refundId, hlen]

theorem AllLeft.orderOfBill (hl : AllLeft db db' held) {no : String}
    {bill : BillRow} (h : HoldsBill held no bill) :
    orderOfBill db' bill = orderOfBill db bill :=
  orderOfBill_congr fun o ho => (hl.order (h.2 o ho)).1

theorem Judged.left (hop : op.run db = some db') (hr : server.Reach db)
    (hl : AllLeft db db' held) (hh : HoldsBill held a.no r.bill)
    (h : Judged db a r) : Judged db' a r where
  found := (hl.bill hh.1).1.trans h.found
  order := h.order.trans (hl.orderOfBill hh).symm
  others := h.others
  reason := h.reason
  unvoided := h.unvoided
  day := h.day
  unsettled := op.settlementsMove hop |>.unsettled (linesHeaded_reach hr)
    h.unsettled (hl.bill hh.1).2

theorem OutletOpen.left (hl : AllLeft db db' held)
    (hout : ⟨.outlet r.bill.loc, .share⟩ ∈ held) (h : OutletOpen db r) :
    OutletOpen db' r := by
  have hloc : db'.rows.locations r.bill.loc = db.rows.locations r.bill.loc := by
    simpa [VoidKey.left] using hl _ hout
  rw [OutletOpen, hloc]
  exact h

theorem SessionOpen.left (hl : AllLeft db db' held)
    (hs : ∀ s, r.bill.sessionId = some s → ⟨.session s, .share⟩ ∈ held)
    (h : SessionOpen db r) : SessionOpen db' r := by
  unfold SessionOpen at h ⊢
  cases hid : r.bill.sessionId with
  | none => rfl
  | some s =>
      have hrow : db'.sessions.get? s = db.sessions.get? s := by
        simpa [VoidKey.left] using hl _ (hs s hid)
      rw [hid] at h
      rw [Option.bind_some, hrow]
      exact h

theorem Cleared.left (hop : op.run db = some db') (hr : server.Reach db)
    (hl : AllLeft db db' held) (h : Cleared db held a r) :
    Cleared db' held a r where
  holds := h.holds
  outlet := h.outlet
  session := h.session
  judged := h.judged.left hop hr hl h.holds
  outletOpen := h.outletOpen.left hl h.outlet
  sessionOpen := h.sessionOpen.left hl h.session

theorem Cleared.saleMoves (hop : op.run db = some db') (hr : server.Reach db)
    (h : Cleared db held a r) : saleMovesOf db' a.no = saleMovesOf db a.no := by
  refine op.saleMoves_stay hop (linesKept_reach hr) ?_
  rw [h.judged.found]
  rfl

theorem Cleared.moved (hop : op.run db = some db') (hr : server.Reach db)
    (hl : AllLeft db db' held) (h : Cleared db held a r)
    (hlock : ∀ id, refundNo db r.order = some id → ⟨.refund id, .update⟩ ∈ held)
    (hm : ∃ out, a.moved r (unsold db a.claims a.no a.reason r.at_) = .ok out) :
    ∃ out, a.moved r (unsold db' a.claims a.no a.reason r.at_) = .ok out := by
  refine refundOrder_goes.2 fun oid o ho hpaid => ?_
  obtain ⟨hst, -, hpos, hfree⟩ := refundOrder_goes.1 hm oid o ho hpaid
  have hcleared := h.left hop hr hl
  obtain ⟨hsource, hqr, hrow⟩ :=
    orderOfBill_some (hcleared.judged.order.symm.trans ho)
  have hbehind : orderBehind r.bill = some oid := by
    rw [orderBehind, if_pos hsource, hqr]
  obtain ⟨-, hid⟩ := hl.order (h.holds.2 oid hbehind)
  refine ⟨hst, fun x hx hne => ?_, hpos, ?_⟩
  · have hapart := ordersApart_reach (hr.step hop) oid o x.1 x.2 hrow
      (Table.get?_eq_some.2 hx) (Ne.symm hne)
    exact hapart
  · change db'.refunds.get? (refundId db' oid) = none
    have hno : refundNo db r.order = some (refundId db oid) := by
      rw [ho]
      obtain ⟨pid, hpid⟩ := Option.isSome_iff_exists.1 hpaid
      rw [refundNo, hpid, Option.map_some]
    have hsame := hl _ (hlock _ hno)
    simp only [VoidKey.left, decide_eq_true_eq] at hsame
    have hfree' : db.refunds.get? (refundId db oid) = none := hfree
    rw [hfree'] at hsame
    rw [hid]
    exact Option.not_isSome_iff_eq_none.1 (by rw [hsame]; decide)

/-- What one operation commits leaves every void that held the rows it had to
wait for. -/
theorem VoidOk.left {x : Tx Db VoidKey VoidTx} (hop : op.run db = some db')
    (hr : server.Reach db) (hl : AllLeft db db' x.held) (h : VoidOk db x) :
    VoidOk db' x := by
  obtain ⟨⟨a, p⟩, held, write⟩ := x
  cases p <;> simp only [VoidOk, VoidShaped] at h hl ⊢
  case begun => exact h
  case found bill =>
    obtain ⟨hlock, hb, hw⟩ := h
    exact ⟨hlock, (hl.bill hlock).1.trans hb, hw⟩
  case ordered bill order =>
    obtain ⟨hh, hb, ho, hw⟩ := h
    exact ⟨hh, (hl.bill hh.1).1.trans hb, ho.trans (hl.orderOfBill hh).symm, hw⟩
  case unsettled r =>
    obtain ⟨hh, hj, hw⟩ := h
    exact ⟨hh, hj.left hop hr hl hh, hw⟩
  case placed r =>
    obtain ⟨hh, hout, hj, hopen, hw⟩ := h
    exact ⟨hh, hout, hj.left hop hr hl hh, hopen.left hl hout, hw⟩
  case held r =>
    obtain ⟨hc, hw⟩ := h
    exact ⟨hc.left hop hr hl, hw⟩
  case counted r sale =>
    obtain ⟨hc, hsale, hw⟩ := h
    exact ⟨hc.left hop hr hl, hsale.trans (hc.saleMoves hop hr).symm, hw⟩
  case posted r =>
    obtain ⟨hc, hw⟩ := h
    refine ⟨hc.left hop hr hl, ?_⟩
    rw [hc.saleMoves hop hr]
    exact hw
  case stamped r =>
    obtain ⟨hc, hw⟩ := h
    refine ⟨hc.left hop hr hl, ?_⟩
    rw [hc.saleMoves hop hr]
    exact hw
  case undone r =>
    obtain ⟨hc, hlock, hm, hw⟩ := h
    refine ⟨hc.left hop hr hl, fun id hid => ?_, hc.moved hop hr hl hlock hm, ?_⟩
    · refine hlock id ?_
      rw [← hid]
      refine (refundNo_congr fun oid o ho => ?_).symm
      have horder := hc.judged.order.symm.trans ho
      obtain ⟨hsource, hqr, -⟩ := orderOfBill_some horder
      exact (hl.order (hc.holds.2 oid (by rw [orderBehind, if_pos hsource, hqr]))).2
    · rw [hc.saleMoves hop hr]
      exact hw

end Left

/-! ## The commit -/

section Commit

variable {db : Db} {x : Tx Db VoidKey VoidTx}

theorem VoidOk.commit (h : VoidOk db x) (hd : x.at_.done = true) :
    ∃ r, x.at_.p = .undone r ∧ Cleared db x.held x.at_.ask r ∧
      (∀ id, refundNo db r.order = some id →
        ⟨.refund id, .update⟩ ∈ x.held) ∧
      voidBill db x.at_.ask.claims x.at_.ask.no x.at_.ask.reason r.at_ =
        .ok (x.write db) := by
  obtain ⟨⟨a, p⟩, held, write⟩ := x
  cases p <;> simp only [VoidTx.done, Bool.false_eq_true] at hd
  case undone r =>
    obtain ⟨hc, hlock, ⟨out, hm⟩, hw⟩ := h
    refine ⟨r, rfl, hc, hlock, voidBill_iff.2 ⟨r.bill, hc.voidable, ?_⟩⟩
    rw [← hc.judged.order]
    -- the write is the same three writes, and the last of them went through
    have hwrite : write db = a.refund r (unsold db a.claims a.no a.reason r.at_) := by
      change write = _ at hw
      rw [hw]
      rfl
    change a.moved r _ = .ok (write db)
    rw [hwrite, VoidAsk.refund, hm]
    rfl

theorem RowLock.conflicts_update (m : RowLock) : RowLock.conflicts .update m = true := by
  cases m <;> rfl

theorem unsold_left (db : Db) (claims : Claims) (no reason : String)
    (at_ : Instant) {k : VoidKey} (hk : k ≠ .bill no) :
    k.left db (unsold db claims no reason at_) = true := by
  cases k with
  | bill no' =>
      have hne : no' ≠ no := fun h => hk (congrArg VoidKey.bill h)
      have hbill : (unsold db claims no reason at_).bills.get? no' =
          db.bills.get? no' := Table.get?_modify_ne _ _ hne
      simp only [VoidKey.left, hbill, decide_true, Bool.true_and]
      exact decide_eq_true rfl
  | order id => simp [VoidKey.left, unsold, refundsOfOrder]
  | outlet loc => exact decide_eq_true rfl
  | session id => exact decide_eq_true rfl
  | refund id => exact decide_eq_true rfl

/-- The order's move and its refund touch that order and that number only. -/
theorem OrderRefunded.left {db db' : Db} {no : String} {total : Money}
    {at_ : Instant} {order : Option (String × QrOrderRow)}
    (h : OrderRefunded db no total at_ order db') {k : VoidKey}
    (horder : ∀ oid o, order = some (oid, o) → k ≠ .order oid)
    (hrefund : ∀ id, refundNo db order = some id → k ≠ .refund id) :
    k.left db db' = true := by
  have hrefl : k.left db db = true := by
    cases k <;> simp [VoidKey.left]
  cases h with
  | noOrder => exact hrefl
  | unpaid _ => exact hrefl
  | @voided oid pid o refunds hp hst hins =>
      have hno : refundNo db (some (oid, o)) = some (refundId db oid) := by
        rw [refundNo, hp, Option.map_some]
      cases k with
      | bill no' => simp [VoidKey.left, settlementsOn]
      | outlet loc => exact decide_eq_true rfl
      | session id => exact decide_eq_true rfl
      | order id =>
          have hne : id ≠ oid := fun h => horder oid o rfl (congrArg _ h)
          have hrow : (db.qrOrders.modify oid fun _ =>
              patchOrder o .voided at_ .none).get? id = db.qrOrders.get? id :=
            Table.get?_modify_ne _ _ hne
          have hrefunds : (refunds.rows.filter fun r =>
              decide (r.2.qrOrderId = id)) = refundsOfOrder db id := by
            rw [(Table.insert?_eq_some hins).2, List.filter_append]
            refine (congrArg _ (List.filter_eq_nil_iff.2 fun r hr hid => ?_)).trans
              (List.append_nil _)
            rw [List.mem_singleton.1 hr] at hid
            exact hne (of_decide_eq_true hid).symm
          simp only [VoidKey.left, hrow, decide_true, Bool.true_and]
          refine decide_eq_true (congrArg (List.map Prod.fst) hrefunds)
      | refund id =>
          have hne : id ≠ refundId db oid :=
            fun h => hrefund _ hno (congrArg _ h)
          refine decide_eq_true ?_
          dsimp only
          rw [Table.get?_insert hins, if_neg hne]

theorem VoidKey.left_trans {db db₁ db' : Db} {k : VoidKey}
    (h : k.left db db₁ = true) (h' : k.left db₁ db' = true) :
    k.left db db' = true := by
  cases k <;> simp only [VoidKey.left, Bool.and_eq_true, decide_eq_true_eq] at h h' ⊢
  · exact ⟨h'.1.trans h.1, h'.2.trans h.2⟩
  · exact ⟨h'.1.trans h.1, h'.2.trans h.2⟩
  · exact h'.trans h
  · exact h'.trans h
  · exact h'.trans h

theorem VoidOk.leaves (h : VoidOk db x) (hd : x.at_.done = true)
    {held : List (Lock VoidKey)} (hclash : clash x.held held = false) :
    AllLeft db (x.write db) held := by
  obtain ⟨r, -, hc, hlock, hvoid⟩ := h.commit hd
  generalize x.write db = db' at hvoid ⊢
  obtain ⟨bill, hv, hrefund⟩ := voidBill_iff.1 hvoid
  obtain rfl : r.bill = bill :=
    Option.some.inj (hc.judged.found.symm.trans hv.found)
  have hne (k : VoidKey) (hk : ⟨k, .update⟩ ∈ x.held) :
      ∀ l ∈ held, l.on ≠ k := by
    rintro l hl rfl
    rw [clash_of_mem hk hl (RowLock.conflicts_update _)] at hclash
    cases hclash
  rintro ⟨k, m⟩ hl
  refine VoidKey.left_trans (unsold_left db _ _ _ r.at_ (hne _ hc.holds.1 _ hl))
    ((refundOrder_ok hrefund).left (fun oid o ho => ?_) fun id hid => ?_)
  · obtain ⟨hsource, hqr, -⟩ := orderOfBill_some ho
    exact hne _ (hc.holds.2 oid (by rw [orderBehind, if_pos hsource, hqr])) _ hl
  · rw [← hc.judged.order] at hid
    exact hne _ (hlock id hid) _ hl

/-- The voids on their own keep what each knows, whatever the order of their
statements. -/
theorem voidTxs_kept :
    voidTxs.Kept (fun _ _ => True) server.Reach VoidOk where
  init db h := .init h
  begins db t _ ht := by
    obtain ⟨a, p⟩ := t
    cases p <;> simp only [voidTxs, VoidTx.starts, Bool.false_eq_true] at ht
    exact rfl
  runs _ _ x c st _ _ _ h hs := h.runs hs
  commits w i x _ _ hi h hd := by
    obtain ⟨r, -, -, -, hv⟩ := h.commit hd
    exact hi.step (e := .voidBill _ _ _ r.at_) (toOption_eq_some.2 hv)
  stable w i j x y _ _ _ _ hi hx hy hd hclash := by
    obtain ⟨r, -, -, -, hv⟩ := hx.commit hd
    have hop : (Op.voidBill x.at_.ask.claims x.at_.ask.no x.at_.ask.reason
        r.at_).run w.committed = some (x.write w.committed) :=
      toOption_eq_some.2 hv
    exact hy.left hop hi (hx.leaves hd hclash)

end Commit

/-- With any other writes between them too. Every state committed is one the
server reaches. -/
theorem voids_safe {w : VoidWorld} (h : voids.Reach w) :
    Database.Safe server.Reach VoidOk w := by
  refine h.invariant ?_ ?_
  · rintro ⟨db, txs⟩ ⟨hdb, rfl⟩
    exact .idle (.init hdb)
  · intro w e w' _ hsafe he
    cases e with
    | void e => exact hsafe.step voidTxs_kept trivial he
    | refuse i at_ =>
        obtain ⟨x, hx, he⟩ := Option.bind_eq_some_iff.1 he
        split at he
        · cases he
          exact hsafe.gone hx hsafe.inv fun j y _ hy => hsafe.ok j y hy
        · cases he
    | other op =>
        simp only [voids, VoidEvent.step] at he
        split at he
        · obtain ⟨db', hop, he⟩ := Option.bind_eq_some_iff.1 he
          split at he
          · next hleft =>
              cases he
              refine ⟨hsafe.inv.step hop, fun j y hy => ?_, hsafe.apart⟩
              refine (hsafe.ok j y hy).left hop hsafe.inv fun l hl => ?_
              have hall := List.all_eq_true.1 hleft j
                (List.mem_range.2 (World.lt_of_tx hy))
              have hy' : w.tx j = some y := hy
              rw [hy'] at hall
              exact List.all_eq_true.1 hall l hl
          · cases he
        · cases he

end Rch

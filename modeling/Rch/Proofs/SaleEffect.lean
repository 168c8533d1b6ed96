import Rch.Api.Pos
import Rch.Proofs.LedgerEffect

/-!
# What a sale and its void leave behind

A sale inserts one bill and posts its moves, each of them taking stock off the
outlet it was sold at, and every item it took was looked at again once the
moves stood. A void stamps the bill, puts the moves back, and hands a QR
bill's order and money to the two functions that move them.
-/

namespace Rch

open Kit

/-! ## The sale -/

theorem sessionFor_ok {db : Db} {loc by_ : String} {mint : Option String}
    {at_ : Instant} {out : Db × String}
    (h : sessionFor db loc by_ mint at_ = .ok out) :
    ∃ sessions, out.1 = { db with sessions } := by
  unfold sessionFor at h
  split at h
  · cases pure_ok.1 h
    exact ⟨db.sessions, rfl⟩
  · split at h
    · next sessions id _ =>
        cases pure_ok.1 h
        exact ⟨sessions, rfl⟩
    · cases h

/-- What `insertBill` asks of the table it writes to. -/
theorem insertBill_ok {db : Db} {no : String} {row : BillRow}
    {bills : Table String BillRow} (h : insertBill db no row = .ok bills) :
    (row.source = .qr ↔ row.qrOrderId.isSome = true) ∧
      (∀ b ∈ db.bills.rows, row.qrOrderId.isSome = true →
        b.2.qrOrderId ≠ row.qrOrderId) ∧
      db.bills.insert? no row = some bills := by
  simpa only [insertBill, bind_ok, guardOr_ok, orInternal_ok, exists_const]
    using h

/-- What a bill for this cart comes to, at the outlet's prices and the payer's
terms as they stand. -/
def saleTotal (db : Db) (i : SaleInput) : Money :=
  let s := sellableAt db i.loc
  let terms := termsFor db (partyOf (i.payer.map PayerRef.kind)) i.payer
  round2 (planBill s.master s.prices i.loc (cartOf i.lines) terms.pct).tot

/-- The roster's name goes on the bill; who it is charged to does not move. -/
theorem payerOf_ok {db : Db} {tender : Tender} {payer out : Option PayerRef}
    (h : payerOf db tender payer = .ok out) :
    out.map (fun p => (p.kind, p.id)) = payer.map fun p => (p.kind, p.id) := by
  simp only [payerOf, bind_ok, assertRule_ok, exists_const] at h
  obtain ⟨-, -, h⟩ := h
  split at h
  · cases pure_ok.1 h
    rfl
  · simp only [bind_ok, assertRule_ok, exists_const, pure_ok] at h
    obtain ⟨hr, rfl⟩ := h
    obtain ⟨r, hr⟩ := Option.isSome_iff_exists.1 hr
    rw [hr]
    rfl

/-- Terms are found by who somebody is, not by how they are called. -/
theorem termsFor_payerOf {db db₁ : Db} (hrows : db₁.rows = db.rows)
    {tender : Tender} {payer out : Option PayerRef}
    (h : payerOf db₁ tender payer = .ok out) :
    termsFor db₁ (partyOf (out.map PayerRef.kind)) out =
      termsFor db (partyOf (payer.map PayerRef.kind)) payer := by
  have hout := payerOf_ok h
  unfold termsFor
  rw [hrows]
  match out, payer, hout with
  | none, none, _ => rfl
  | some p, some q, hout =>
      obtain ⟨hk, hid⟩ := Prod.mk.inj (Option.some.inj hout)
      simp only [Option.map_some, Option.bind_some, hk, hid]

/-- What `postSale` leaves behind. -/
structure Sold (db : Db) (i : SaleInput) (at_ : Instant) (db' : Db)
    (no : String) (row : BillRow) : Prop where
  total : row.total = saleTotal db i
  row_eq : ∃ plan terms payer phone session,
    row = billRow i plan terms payer phone session at_
  one_bill : ∀ b ∈ db.bills.rows, row.qrOrderId.isSome = true →
    b.2.qrOrderId ≠ row.qrOrderId
  bills : db.bills.insert? no row = some db'.bills
  exists_moves : ∃ cells moves,
    (∀ c, batchAt moves c = 0 ∨
      0 ≤ freeAt (postMoves (lockBalances db.stock cells) moves) c.loc c.it) ∧
    ((∀ l ∈ i.lines, 0 ≤ l.qty) → ∀ m ∈ moves, m.qty ≤ 0) ∧
    (∀ m ∈ moves, m.kind = .sale ∧ m.refType = "bill" ∧ m.refId = no) ∧
    ∃ seq sessions, db' = { db with
      seq, sessions, bills := db'.bills
      stock := postMoves (lockBalances db.stock cells) moves }

theorem mem_saleMoves {plan : BillPlan} {no by_ : String} {at_ : Instant}
    {m : Move} (h : m ∈ saleMoves plan no by_ at_) :
    ∃ p ∈ plan.moves, m.loc = p.loc ∧ m.it = p.it ∧ m.qty = p.qty := by
  obtain ⟨p, hp, rfl⟩ := List.mem_map.1 h
  exact ⟨p, hp, rfl, rfl, rfl⟩

/-- A planned move takes a line of the cart off the outlet's shelf. -/
theorem mem_planBill_moves {m : Master} {prices : Prices} {l : LocKey}
    {cart : List Line} {pct : Pct} {p : PlannedMove}
    (h : p ∈ (planBill m prices l cart pct).moves) :
    p.loc = l ∧ ∃ c ∈ cart, p.it = c.it ∧ p.qty = -c.qty := by
  rw [planBill_moves] at h
  obtain ⟨c, hc, rfl⟩ := List.mem_map.1 h
  exact ⟨rfl, c, (List.mem_filter.1 hc).1, rfl, rfl⟩

theorem mem_tookOf {plan : BillPlan} {p : PlannedMove} (h : p ∈ plan.moves) :
    ∃ l ∈ tookOf plan, l.it = p.it := by
  have hk : p.it ∈ (accumulate LineInput.it
      (fun x (l : LineInput) => round3 ((x : ℚ) + l.qty)) (0 : Qty)
      (plan.moves.map fun m => ⟨m.it, -(m.qty : ℚ)⟩)).map Prod.fst :=
    mem_keys_accumulate.2 ⟨_, List.mem_map_of_mem h, rfl⟩
  obtain ⟨q, hq, hit⟩ := List.mem_map.1 hk
  exact ⟨⟨q.1, q.2⟩, List.mem_map.2 ⟨q, hq, rfl⟩, hit⟩

theorem foldLines_qty_nonneg {lines : List LineInput}
    (h : ∀ l ∈ lines, 0 ≤ l.qty) {l : Line} (hl : l ∈ foldLines lines) :
    0 ≤ l.qty := by
  rw [mem_foldLines_qty hl]
  exact sumOn_nonneg fun b hb _ => Decimal.round_nonneg (h b hb)

/-- A cell the plan moves nothing at is left alone; any other was looked at
with the moves posted. -/
theorem saleMoves_left {m : Master} {prices : Prices} {loc : LocKey}
    {cart : List Line} {pct : Pct} {stock : Stock} {no by_ : String}
    {at_ : Instant}
    (h : ∀ l ∈ tookOf (planBill m prices loc cart pct),
      0 ≤ freeAt stock loc l.it) (c : Cell) :
    batchAt (saleMoves (planBill m prices loc cart pct) no by_ at_) c = 0 ∨
      0 ≤ freeAt stock c.loc c.it := by
  by_cases hc : ∃ x ∈ saleMoves (planBill m prices loc cart pct) no by_ at_,
      x.cell = c
  · obtain ⟨x, hx, rfl⟩ := hc
    obtain ⟨p, hp, hloc, hit, -⟩ := mem_saleMoves hx
    obtain ⟨l, hl, hl'⟩ := mem_tookOf hp
    have hfree := h l hl
    rw [hl', ← hit, ← (mem_planBill_moves hp).1, ← hloc] at hfree
    exact .inr hfree
  · exact .inl (sumOn_eq_zero fun x hx hk => absurd ⟨x, hx, hk⟩ hc)

/-- A sale only takes. -/
theorem saleMoves_nonpos {m : Master} {prices : Prices} {loc : LocKey}
    {lines : List LineInput} {pct : Pct} {no by_ : String} {at_ : Instant}
    (h : ∀ l ∈ lines, 0 ≤ l.qty) {x : Move}
    (hx : x ∈ saleMoves (planBill m prices loc (cartOf lines) pct) no by_ at_) :
    x.qty ≤ 0 := by
  obtain ⟨p, hp, -, -, hqty⟩ := mem_saleMoves hx
  obtain ⟨-, c, hc, -, hpc⟩ := mem_planBill_moves hp
  rw [hqty, hpc, Decimal.toRat_neg, neg_nonpos]
  exact Decimal.toRat_nonneg.2 (foldLines_qty_nonneg h hc)

/-- Everything a sale posts is a sale, under the bill's own number. -/
theorem saleMoves_names {plan : BillPlan} {no by_ : String} {at_ : Instant} :
    ∀ m ∈ saleMoves plan no by_ at_,
      m.kind = .sale ∧ m.refType = "bill" ∧ m.refId = no := by
  intro m hm
  obtain ⟨p, -, rfl⟩ := List.mem_map.1 hm
  exact ⟨rfl, rfl, rfl⟩

theorem postSale_ok {db db' : Db} {i : SaleInput} {mint : Option String}
    {at_ : Instant} {no : String} {row : BillRow}
    (h : postSale db i mint at_ = .ok (db', no, row)) :
    Sold db i at_ db' no row := by
  unfold postSale allocateId at h
  simp only [bind_ok, assertOpen_ok, assertLeft, assertEach_ok, exists_const,
    pure_ok, Prod.mk.injEq] at h
  obtain ⟨outlet, -, -, ⟨db₁, session⟩, hsession, phone, -, payer, hpayer, -, -, -,
    -, -, -, bills, hbills, hleft, rfl, rfl, rfl⟩ := h
  obtain ⟨sessions, hdb⟩ := sessionFor_ok hsession
  obtain rfl : db₁ = { db with sessions } := hdb
  obtain ⟨-, hone, hins⟩ := insertBill_ok hbills
  refine ⟨?_, ⟨_, _, _, _, _, rfl⟩, hone, hins, _, _, saleMoves_left hleft,
    fun hpos _ hm => saleMoves_nonpos hpos hm, saleMoves_names, _, sessions,
    rfl⟩
  have hterms : termsFor { db with sessions } _ payer = termsFor db _ i.payer :=
    termsFor_payerOf rfl hpayer
  unfold saleTotal
  rw [← hterms]
  rfl

theorem pay_ok {db db' : Db} {claims : Claims} {body : PayBody}
    {mint : Option String} {at_ : Instant}
    (h : pay db claims body mint at_ = .ok db') :
    ∃ no row, Sold db (body.input claims.sub) at_ db' no row := by
  simp only [pay, bind_ok, pure_ok] at h
  obtain ⟨⟨_, no, row⟩, hs, rfl⟩ := h
  exact ⟨no, row, postSale_ok hs⟩

/-! ## The two functions a void hands on to -/

theorem moveQrOrder_ok {db db' : Db} {id : String} {o : QrOrderRow}
    {next : QrOrderStatus} {at_ : Instant} {p : OrderPatch}
    (h : moveQrOrder db id o next at_ p = .ok db') :
    next ∈ qrOrderTransitions o.status ∧
      orderUnique db id (patchOrder o next at_ p) ∧
      db' = { db with
        qrOrders := db.qrOrders.modify id fun _ => patchOrder o next at_ p } := by
  simp only [moveQrOrder, bind_ok, assertTransition_ok, guardOr_ok,
    exists_const, pure_ok] at h
  exact ⟨h.1, h.2.1, h.2.2.symm⟩

theorem queueRefund_ok {db db' : Db} {d : RefundDraft}
    (h : queueRefund db d = .ok db') :
    0 < d.amount ∧ ∃ refunds, db.refunds.insert? (refundId db d.qrOrderId)
        (newRefund d) = some refunds ∧ db' = { db with refunds } := by
  simp only [queueRefund, bind_ok, guardOr_ok, orInternal_ok, exists_const,
    pure_ok] at h
  obtain ⟨hpos, refunds, hins, rfl⟩ := h
  exact ⟨hpos, refunds, hins, rfl⟩

theorem orderOfBill_some {db : Db} {bill : BillRow} {oid : String}
    {o : QrOrderRow} (h : orderOfBill db bill = some (oid, o)) :
    bill.source = .qr ∧ bill.qrOrderId = some oid ∧
      db.qrOrders.get? oid = some o := by
  unfold orderOfBill at h
  split at h
  · next hsource =>
      obtain ⟨x, hx, h⟩ := Option.bind_eq_some_iff.1 h
      obtain ⟨row, hrow, heq⟩ := Option.map_eq_some_iff.1 h
      cases heq
      exact ⟨hsource, hx, hrow⟩
  · cases h

/-- What `refundOrder` leaves behind. -/
inductive OrderRefunded (db : Db) (no : String) (total : Money)
    (at_ : Instant) : Option (String × QrOrderRow) → Db → Prop
  | noOrder : OrderRefunded db no total at_ none db
  | unpaid {oid : String} {o : QrOrderRow} (hp : o.rzpPaymentId = none) :
      OrderRefunded db no total at_ (some (oid, o)) db
  | voided {oid pid : String} {o : QrOrderRow}
      {refunds : Table String RefundRow} (hp : o.rzpPaymentId = some pid)
      (hst : .voided ∈ qrOrderTransitions o.status)
      (hins : db.refunds.insert? (refundId db oid)
        (newRefund ⟨oid, pid, total, .void, some no, at_⟩) = some refunds) :
      OrderRefunded db no total at_ (some (oid, o)) { db with
        qrOrders := db.qrOrders.modify oid fun _ =>
          patchOrder o .voided at_ .none
        refunds }

theorem refundOrder_ok {db db' : Db} {order : Option (String × QrOrderRow)}
    {no : String} {total : Money} {at_ : Instant}
    (h : refundOrder db order no total at_ = .ok db') :
    OrderRefunded db no total at_ order db' := by
  unfold refundOrder at h
  split at h
  · cases pure_ok.1 h
    exact .noOrder
  · next oid o =>
      split at h
      · next hp =>
          cases pure_ok.1 h
          exact .unpaid hp
      · next pid hp =>
          obtain ⟨db₁, hmove, hq⟩ := bind_ok.1 h
          obtain ⟨hst, -, rfl⟩ := moveQrOrder_ok hmove
          obtain ⟨-, refunds, hins, rfl⟩ := queueRefund_ok hq
          exact .voided hp hst hins

def stampBill (s : VoidStamp) (b : BillRow) : BillRow :=
  { b with voided := some s }

def voidMoves (db : Db) (no by_ : String) (at_ : Instant) : List Move :=
  reversalsOf (saleMovesOf db no) no by_ at_

theorem voidBill_ok {db db' : Db} {claims : Claims} {no reason : String}
    {at_ : Instant} (h : voidBill db claims no reason at_ = .ok db') :
    ∃ bill stamp, db.bills.get? no = some bill ∧ bill.voided = none ∧
      liveSettlementOf db no = none ∧
      OrderRefunded { db with
        stock := postMoves db.stock (voidMoves db no claims.sub at_)
        bills := db.bills.modify no (stampBill stamp) } no bill.total at_
        (orderOfBill db bill) db' := by
  simp only [voidBill, bind_ok, orNotFound_ok, guardOr_ok, assertRule_ok,
    assertOpen_ok, exists_const] at h
  obtain ⟨bill, hb, -, -, hlive, -, hpaid, -, -, -, -, hr⟩ := h
  exact ⟨bill, _, hb, hlive, hpaid, refundOrder_ok hr⟩

end Rch

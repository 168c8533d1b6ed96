import Rch.Proofs.Frame

/-!
# What an operation can do to a shelf

Seen from the shelves there are six kinds of operation: those that leave them
alone, those that post a batch, those that write a ticket, the handover, the
cancellation, and the rebuild. Each constructor below carries what the
service's own refusals guaranteed, so that the law of the shelves is proved
over six cases and not over every service.

What the services rely on in turn is that no document carries a line that is
less than nothing: `LinesKept`. The schema promises it of the bodies, and every
operation keeps it.
-/

namespace Rch

open Kit

/-- What a shelf sees of a ticket: where it holds, what, and whether still. -/
structure Pledge where
  from_ : LocKey
  lines : List Line
  standing : Bool

def TicketRow.pledge (t : TicketRow) : Pledge :=
  ⟨t.from_, t.lines, decide (t.st = .issued)⟩

def Db.pledge (db : Db) (id : String) : Option Pledge :=
  (db.tickets.get? id).map TicketRow.pledge

/-- No document carries a line that is less than nothing, and a request names
each item once. -/
structure LinesKept (db : Db) : Prop where
  pledges : ∀ id p, db.pledge id = some p → ∀ l ∈ p.lines, 0 ≤ l.qty
  sales : ∀ m ∈ db.stock.moves, m.kind = .sale → m.qty ≤ 0
  requests : db.requests.All fun _ r => (r.lines.map RequestLine.it).Nodup
  orders : db.qrOrders.All fun _ o => ∀ l ∈ o.lines, 0 ≤ l.qty

inductive ShelfChange (db db' : Db) : Prop
  | still (hs : db'.stock = db.stock) (ht : db'.pledge = db.pledge)
  | posted (cells : List Cell) {moves : List Move}
      (hs : db'.stock = postMoves (lockBalances db.stock cells) moves)
      (ht : db'.pledge = db.pledge)
      (hc : ∀ c, 0 ≤ batchAt moves c ∨ 0 ≤ freeAt db'.stock c.loc c.it)
      (hsale : ∀ m ∈ moves, m.kind = .sale → m.qty ≤ 0)
  | sent {draft : TicketDraft} {no : TicketNumber} {db₁ : Db}
      (h : Sent db draft no db₁) (hs : db'.stock = db₁.stock)
      (ht : db'.tickets = db₁.tickets)
  | collected {id : String} {t : TicketRow} {by_ : String} {at_ : Instant}
      {moves : List Move} (hid : db.tickets.get? id = some t)
      (hst : t.st = .issued)
      (hm : moves = ticketMoves t id t.from_ (fun q => -q) .ticketOut by_ at_)
      (hs : db'.stock = releaseForTicket (postMoves db.stock moves) id at_)
      (ht : db'.tickets = db.tickets.modify id fun t =>
        { t with st := .collected, collectedAt := some at_ })
  | withdrawn {id : String} {at_ : Instant}
      (hs : db'.stock = releaseForTicket db.stock id at_)
      (ht : db'.tickets = db.tickets.modify id fun t =>
        { t with st := .cancelled })
  | rebuilt (hs : db'.stock = rebuildBalances db.stock)
      (ht : db'.tickets = db.tickets)

theorem pledge_of_tickets {db db' : Db} (h : db'.tickets = db.tickets) :
    db'.pledge = db.pledge := by
  funext id
  rw [Db.pledge, Db.pledge, h]

/-- A rewrite of a ticket's row that its shelf does not see. -/
theorem pledge_modify {db db' : Db} {id : String} {t : TicketRow}
    {f : TicketRow → TicketRow} (ht : db.tickets.get? id = some t)
    (h : db'.tickets = db.tickets.modify id f)
    (hf : (f t).pledge = t.pledge) : db'.pledge = db.pledge := by
  funext x
  rw [Db.pledge, Db.pledge, h]
  by_cases hx : x = id
  · subst hx
    rw [Table.get?_modify_self, ht, Option.map_some, Option.map_some,
      Option.map_some, hf]
  · rw [Table.get?_modify_ne _ _ hx]

theorem mem_ticketMoves {t : TicketRow} {id : String} {loc : LocKey}
    {signed : Qty → ℚ} {kind : MoveKind} {by_ : String} {at_ : Instant}
    {m : Move} (h : m ∈ ticketMoves t id loc signed kind by_ at_) :
    m.kind = kind ∧ ∃ l ∈ t.lines, m.qty = signed l.qty := by
  obtain ⟨l, hl, rfl⟩ := List.mem_map.1 h
  exact ⟨rfl, l, hl, rfl⟩

/-- Moves that never are a sale. -/
theorem sale_nonpos_of_ne {moves : List Move} (h : ∀ m ∈ moves, m.kind ≠ .sale) :
    ∀ m ∈ moves, m.kind = .sale → m.qty ≤ 0 :=
  fun m hm hk => absurd hk (h m hm)

/-- A ticket is never written, moved on or put back without the holds. -/
theorem Op.stock_of_tickets {op : Op} (h : .tickets ∈ op.touches) :
    .stock ∈ op.touches := by
  cases op <;> simp [Op.touches] at h ⊢

theorem Sold.shelfChange {db db₁ : Db} {i : SaleInput} {at_ : Instant}
    {no : String} {row : BillRow} (h : Sold db i at_ db₁ no row)
    (hpos : ∀ l ∈ i.lines, 0 ≤ l.qty) {db' : Db} (hs : db'.stock = db₁.stock)
    (ht : db'.tickets = db₁.tickets) : ShelfChange db db' := by
  have htickets := ht.trans (h.same .tickets nofun nofun)
  obtain ⟨cells, moves, hc, hneg, -, seq, sessions, hdb⟩ := h.exists_moves
  have hstock : db₁.stock = postMoves (lockBalances db.stock cells) moves := by
    rw [hdb]
  refine .posted cells (hs.trans hstock) (pledge_of_tickets htickets) (fun c => ?_)
    fun m hm _ => hneg hpos m hm
  rw [hs, hstock]
  exact (hc c).imp_left fun h => h.ge

theorem Op.shelfChange {op : Op} {db db' : Db} (h : op.run db = some db')
    (hk : LinesKept db) : ShelfChange db db' := by
  by_cases hp : .stock ∈ op.touches
  case neg =>
    have hstock := op.frame h hp
    have htickets := op.frame h fun ht => hp (Op.stock_of_tickets ht)
    exact .still hstock (pledge_of_tickets htickets)
  cases op <;> simp only [Op.run, toOption_eq_some, map_ok, Op.touches,
    List.mem_cons, List.not_mem_nil, or_false, reduceCtorEq,
    Option.some.injEq] at h hp
  case handover =>
    obtain ⟨⟨db₁, e⟩, h, rfl⟩ := h
    obtain ⟨t, ht, hst, rfl | ⟨moves, hm, -, rfl⟩⟩ := handover_ok h
    · exact .still rfl (pledge_modify ht
        (f := fun t => { t with otpAttempts := t.otpAttempts + 1 }) rfl rfl)
    · exact .collected ht hst hm rfl rfl
  case receive claims id at_ =>
    obtain ⟨t, ht, hst, rfl⟩ := receive_ok h
    refine .posted [] rfl (pledge_modify ht
        (f := fun t => { t with st := .received, receivedAt := some at_ })
        rfl ?_)
      (fun c => .inl ?_) (sale_nonpos_of_ne fun m hm => ?_)
    · simp [TicketRow.pledge, hst]
    · apply batchAt_withUseOnArrival_nonneg
      intro m hm _
      obtain ⟨-, l, hl, hq⟩ := mem_ticketMoves hm
      refine ⟨l.qty, hq, hk.pledges id t.pledge ?_ l hl⟩
      rw [Db.pledge, ht]
      rfl
    · rcases mem_withUseOnArrival hm with hkind | hm
      · rw [hkind]
        intro hkind
        cases hkind
      · rw [(mem_ticketMoves hm).1]
        intro hkind
        cases hkind
  case cancelTicket =>
    obtain ⟨t, -, -, hr⟩ := cancelTicket_ok h
    exact .withdrawn (hr.same .stock (by decide) (by decide))
      (hr.same .tickets (by decide) (by decide))
  case transfer =>
    obtain ⟨draft, no, -, -, hs⟩ := transfer_ok h
    exact .sent hs rfl rfl
  case distribute =>
    obtain ⟨draft, no, -, -, hs⟩ := distribute_ok h
    exact .sent hs rfl rfl
  case redirectRequest =>
    obtain ⟨r, draft, no, db₁, hr, -, -, -, -, hs, rfl⟩ := redirectRequest_ok h
    exact .sent (hs (hk.requests _ r hr)) rfl rfl
  case issueRequest =>
    obtain ⟨r, draft, no, db₁, -, -, -, -, hs, rfl⟩ := issueRequest_ok h
    exact .sent hs rfl rfl
  case dispatchOrder =>
    obtain ⟨o, draft, no, db₁, -, -, -, hs, rfl⟩ := dispatchOrder_ok h
    exact .sent hs rfl rfl
  case answerShopAsk =>
    obtain ⟨a, draft, no, db₁, -, -, -, hs, rfl⟩ := answerShopAsk_ok h
    exact .sent hs rfl rfl
  case makeBatch =>
    obtain ⟨moves, seq, batches, hnn, hns, -, rfl⟩ := makeBatch_ok h
    exact .posted [] rfl rfl (fun c => .inl (hnn c))
      (sale_nonpos_of_ne hns)
  case createAdjustment =>
    obtain ⟨cells, moves, adjustments, hc, hns, -, rfl⟩ := createAdjustment_ok h
    exact .posted cells rfl rfl hc (sale_nonpos_of_ne hns)
  case approveAdjustmentRequest =>
    obtain ⟨_, f, ⟨cells, moves, adjustments, hc, hns, -, rfl⟩, rfl⟩ :=
      approveAdjustmentRequest_ok h
    exact .posted cells rfl rfl hc (sale_nonpos_of_ne hns)
  case receivePo =>
    obtain ⟨moves, grns, purchaseOrders, hm, rfl⟩ := receivePo_ok h
    exact .posted [] rfl rfl
      (fun c => .inl (batchAt_nonneg fun m hmem _ => (hm m hmem).1))
      (sale_nonpos_of_ne fun m hmem => (hm m hmem).2.1)
  case openStock =>
    obtain ⟨moves, seq, batches, hnn, hns, -, rfl⟩ := openStock_ok h
    exact .posted [] rfl rfl (fun c => .inl (hnn c))
      (sale_nonpos_of_ne hns)
  case pay body _ _ =>
    obtain ⟨no, row, hs⟩ := pay_ok h
    exact hs.shelfChange (fun l hl => (body.positive l hl).le) rfl rfl
  case voidBill claims no reason at_ =>
    obtain ⟨bill, stamp, -, -, -, hr⟩ := voidBill_ok h
    refine .posted [] (hr.same .stock (by decide))
      (pledge_of_tickets (hr.same .tickets (by decide)))
      (fun c => .inl (batchAt_nonneg fun m hm _ => ?_))
      (sale_nonpos_of_ne fun m hm => ?_)
    · obtain ⟨x, hx, rfl⟩ := List.mem_map.1 hm
      obtain ⟨hmem, hd⟩ := List.mem_filter.1 hx
      have hneg := hk.sales x hmem (of_decide_eq_true hd).2.2
      rw [← Decimal.toRat_le, Decimal.toRat_zero] at hneg
      exact neg_nonneg.2 hneg
    · obtain ⟨x, -, rfl⟩ := List.mem_map.1 hm
      intro hkind
      cases hkind
  case settleCapture oid p mint at_ =>
    obtain ⟨o, ho, hs⟩ := settleCapture_ok h
    cases hs with
    | again _ => exact .still rfl rfl
    | refundedBefore _ _ _ => exact .still rfl rfl
    | duplicate _ _ _ _ => exact .still rfl rfl
    | unfulfillable _ _ _ _ => exact .still rfl rfl
    | billed _ _ _ hsold _ _ =>
        refine hsold.shelfChange (fun l hl => ?_) rfl rfl
        obtain ⟨b, hb, rfl⟩ := List.mem_map.1 hl
        exact Decimal.toRat_nonneg.2 (hk.orders oid o ho b hb)
  case rebuild =>
    subst h
    exact .rebuilt rfl rfl

end Rch

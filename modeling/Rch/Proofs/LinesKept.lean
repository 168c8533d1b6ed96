import Rch.Proofs.ShelfChange

/-!
# No document's line is less than nothing

The schema of each body admits only positive lines, or the service refuses
them, and what is stored is what was admitted, rounded. So in every state the
server reaches the tickets, the requests and the QR orders carry lines the
shelf operations may rely on, and every sale in the ledger took something off
a shelf.
-/

namespace Rch

open Kit

theorem linesKept_fresh (rows : MasterRows) : LinesKept (Db.fresh rows) where
  pledges _ _ h := by simp [Db.pledge, Db.fresh] at h
  sales _ hm := absurd hm List.not_mem_nil
  requests := Table.all_empty _
  orders := Table.all_empty _

/-! ## Tickets and sales, by what can happen to a shelf -/

/-- A rewrite of a ticket's status keeps the lines it is pledged for. -/
theorem pledge_lines_modify {db db' : Db} {id : String}
    {f : TicketRow → TicketRow} (h : db'.tickets = db.tickets.modify id f)
    (hf : ∀ t, (f t).lines = t.lines) {P : Line → Prop}
    (hk : ∀ id p, db.pledge id = some p → ∀ l ∈ p.lines, P l) :
    ∀ id p, db'.pledge id = some p → ∀ l ∈ p.lines, P l := by
  intro x p hp l hl
  rw [Db.pledge, h, Table.get?_modify] at hp
  obtain ⟨t, ht, rfl⟩ := Option.map_eq_some_iff.1 hp
  split at ht
  · obtain ⟨t₀, ht₀, rfl⟩ := Option.map_eq_some_iff.1 ht
    refine hk x t₀.pledge ?_ l ((hf t₀).subst hl)
    rw [Db.pledge, ht₀, Option.map_some]
  · refine hk x t.pledge ?_ l hl
    rw [Db.pledge, ht, Option.map_some]

theorem Sent.pledge {db db₁ : Db} {draft : TicketDraft} {no : TicketNumber}
    (h : Sent db draft no db₁) (id : String) :
    db₁.pledge id =
      if id = no.id then
        some ⟨draft.from_, ticketLinesOf draft.lines, true⟩
      else db.pledge id := by
  obtain ⟨cells, hw⟩ := h.wrote
  rw [Db.pledge, Table.get?_insert hw.tickets]
  split
  · rfl
  · rfl

theorem Sent.lines_pos {db db₁ : Db} {draft : TicketDraft} {no : TicketNumber}
    (h : Sent db draft no db₁) :
    ∀ l ∈ ticketLinesOf draft.lines, 0 < l.qty := by
  obtain ⟨cells, hw⟩ := h.wrote
  intro l hl
  have := (reserve_ok hw.stock).1 _ (List.mem_map.2 ⟨l, hl, rfl⟩)
  rwa [round3_qty] at this

theorem Sent.moves {db db₁ : Db} {draft : TicketDraft} {no : TicketNumber}
    (h : Sent db draft no db₁) : db₁.stock.moves = db.stock.moves := by
  obtain ⟨cells, hw⟩ := h.wrote
  rw [reserve_moves hw.stock]
  rfl

/-- A batch whose sales take, posted on a ledger whose sales took. -/
theorem sales_post {s : Stock} {moves : List Move}
    (hs : ∀ m ∈ s.moves, m.kind = .sale → m.qty ≤ 0)
    (h : ∀ m ∈ moves, m.kind = .sale → m.qty ≤ 0) :
    ∀ m ∈ (postMoves s moves).moves, m.kind = .sale → m.qty ≤ 0 := by
  intro m hm hk
  rcases mem_postMoves hm with hm | ⟨x, hx, id, rfl⟩
  · exact hs m hm hk
  · refine Decimal.round_le ?_
    rw [Decimal.toRat_zero]
    exact h x hx hk

theorem ShelfChange.pledges {db db' : Db} (h : ShelfChange db db')
    (hk : ∀ id p, db.pledge id = some p → ∀ l ∈ p.lines, 0 ≤ l.qty) :
    ∀ id p, db'.pledge id = some p → ∀ l ∈ p.lines, 0 ≤ l.qty := by
  cases h with
  | still _ ht =>
      rw [ht]
      exact hk
  | posted _ _ ht _ _ =>
      rw [ht]
      exact hk
  | @sent draft no db₁ hsent _ ht =>
      intro id p hp
      rw [pledge_of_tickets ht, hsent.pledge] at hp
      split at hp
      · cases hp
        exact fun l hl => (hsent.lines_pos l hl).le
      · exact hk id p hp
  | collected _ _ _ _ ht => exact pledge_lines_modify ht (fun _ => rfl) hk
  | withdrawn _ ht => exact pledge_lines_modify ht (fun _ => rfl) hk
  | rebuilt _ ht =>
      rw [pledge_of_tickets ht]
      exact hk

theorem ShelfChange.sales {db db' : Db} (h : ShelfChange db db')
    (hk : ∀ m ∈ db.stock.moves, m.kind = .sale → m.qty ≤ 0) :
    ∀ m ∈ db'.stock.moves, m.kind = .sale → m.qty ≤ 0 := by
  cases h with
  | still hs _ =>
      rw [hs]
      exact hk
  | posted _ hs _ _ hsale =>
      rw [hs]
      exact sales_post hk hsale
  | sent hsent hs _ =>
      rw [hs, hsent.moves]
      exact hk
  | collected _ _ hm hs _ =>
      rw [hs, release_moves]
      refine sales_post hk (sale_nonpos_of_ne fun m hmem => ?_)
      rw [(mem_ticketMoves (hm ▸ hmem)).1]
      exact nofun
  | withdrawn hs _ =>
      rw [hs]
      exact hk
  | rebuilt hs _ =>
      rw [hs]
      exact hk

/-! ## Requests -/

theorem all_stepRequest {db : Db} {P : String → RequestRow → Prop}
    (h : db.requests.All P) (refId : String) (next : ReqStatus)
    (hP : ∀ id r, P id r → P id { r with status := next }) :
    (stepRequest db refId next).All P := by
  unfold stepRequest
  split
  · split
    · exact h.modify fun r _ => hP refId r
    · exact h
  · exact h

/-- Whatever happens to a request, it names each item once. -/
theorem requests_nodup_step {op : Op} {db db' : Db}
    (h : op.run db = some db')
    (hk : db.requests.All fun _ r => (r.lines.map RequestLine.it).Nodup) :
    db'.requests.All fun _ r => (r.lines.map RequestLine.it).Nodup := by
  by_cases hp : .requests ∈ op.touches
  case neg =>
    have hsame : db'.requests = db.requests := op.frame h hp
    rw [hsame]
    exact hk
  cases op <;> simp only [Op.run, toOption_eq_some, map_ok, Op.touches,
    List.mem_cons, List.not_mem_nil, or_false, reduceCtorEq,
    Option.some.injEq] at h hp
  case handover =>
    obtain ⟨⟨db₁, e⟩, h, rfl⟩ := h
    obtain ⟨t, -, -, rfl | ⟨moves, -, -, rfl⟩⟩ := handover_ok h
    · exact hk
    · exact all_stepRequest hk _ _ fun _ _ => id
  case receive =>
    obtain ⟨t, -, -, rfl⟩ := receive_ok h
    exact all_stepRequest hk _ _ fun _ _ => id
  case cancelTicket =>
    obtain ⟨t, -, -, hr⟩ := cancelTicket_ok h
    cases hr with
    | request _ _ _ => exact hk.modify fun _ _ => id
    | prodOrder _ => exact hk
    | shopAsk _ => exact hk
    | nothing _ => exact hk
  case createRequest =>
    obtain ⟨r, requests, hins, -, hn, rfl⟩ := createRequest_ok h
    exact hk.insert hins hn
  case cancelRequest =>
    obtain ⟨r, -, -, rfl⟩ := cancelRequest_ok h
    exact hk.modify fun _ _ => id
  case approveRequest =>
    obtain ⟨r, plan, hr, -, -, hit, rfl⟩ := approveRequest_ok h
    refine hk.modify fun r' hr' hn => ?_
    cases hr.symm.trans hr'
    rw [hit]
    exact hn
  case rejectRequest =>
    obtain ⟨r, -, -, rfl⟩ := rejectRequest_ok h
    exact hk.modify fun _ _ => id
  case redirectRequest =>
    obtain ⟨r, draft, no, db₁, -, -, -, -, hw, -, rfl⟩ := redirectRequest_ok h
    have hsame : db₁.requests = db.requests := hw.same .requests (by decide) (by decide)
    refine Table.All.modify (hsame ▸ hk) fun r' _ hn => ?_
    rw [List.map_map]
    exact hn
  case issueRequest =>
    obtain ⟨r, draft, no, db₁, -, -, -, -, hs, rfl⟩ := issueRequest_ok h
    have hsame : db₁.requests = db.requests :=
      hs.wrote.same .requests (by decide) (by decide)
    exact Table.All.modify (hsame ▸ hk) fun _ _ => id

/-! ## QR orders -/

theorem all_restatus {db : Db} {P : String → QrOrderRow → Prop}
    (h : db.qrOrders.All P) (id : String) (next : QrOrderStatus)
    (at_ : Instant)
    (hP : ∀ id o p, P id o → P id (patchOrder o next at_ p)) :
    (restatus db id next at_).qrOrders.All P :=
  h.modify fun o _ => hP id o .none

theorem all_patched {t : Table String QrOrderRow}
    {P : String → QrOrderRow → Prop} (h : t.All P) {id : String}
    {o : QrOrderRow} (ho : t.get? id = some o) {next : QrOrderStatus}
    {at_ : Instant} {p : OrderPatch}
    (hP : P id o → P id (patchOrder o next at_ p)) :
    (t.modify id fun _ => patchOrder o next at_ p).All P :=
  h.modify fun _ _ _ => hP (h id o ho)

/-- Whatever happens to an order, its lines are the ones it was placed
with. -/
theorem orders_nonneg_step {op : Op} {db db' : Db} (h : op.run db = some db')
    (hk : db.qrOrders.All fun _ o => ∀ l ∈ o.lines, 0 ≤ l.qty) :
    db'.qrOrders.All fun _ o => ∀ l ∈ o.lines, 0 ≤ l.qty := by
  by_cases hp : .gateway ∈ op.touches
  case neg =>
    rw [(op.frame h hp).1]
    exact hk
  cases op <;> simp only [Op.run, toOption_eq_some, map_ok, Op.touches,
    List.mem_cons, List.not_mem_nil, or_false, reduceCtorEq,
    Option.some.injEq] at h hp
  case placeOrder =>
    obtain ⟨id, o, qrOrders, seq, hins, -, -, -, -, hpos, rfl⟩ := placeOrder_ok h
    exact hk.insert hins hpos
  case setRzpOrder =>
    obtain rfl | ⟨o, -, -, -, rfl⟩ := setRzpOrder_ok h
    · exact hk
    · exact hk.modify fun _ _ => id
  case refuseCheckout =>
    obtain rfl | ⟨o, -, -, rfl⟩ := refuseCheckout_ok h
    · exact hk
    · exact all_restatus hk _ _ _ fun _ _ _ => id
  case setQrStatus =>
    obtain ⟨o, -, -, -, rfl⟩ := setQrStatus_ok h
    exact all_restatus hk _ _ _ fun _ _ _ => id
  case expireOrders =>
    exact expireOrders_induct
      (P := fun db => db.qrOrders.All fun _ o => ∀ l ∈ o.lines, 0 ≤ l.qty)
      (fun _ _ _ hk _ _ => all_restatus hk _ _ _ fun _ _ _ => id) hk h
  case voidBill =>
    obtain ⟨bill, stamp, -, -, -, hr⟩ := voidBill_ok h
    generalize horder : orderOfBill db bill = order at hr
    cases hr with
    | noOrder => exact hk
    | unpaid _ => exact hk
    | @voided oid pid o refunds _ _ _ =>
        exact all_patched hk (orderOfBill_some horder).2.2 id
  case settleCapture =>
    obtain ⟨o, ho, hs⟩ := settleCapture_ok h
    cases hs with
    | again _ => exact hk
    | refundedBefore _ _ _ => exact hk
    | duplicate _ _ _ _ => exact hk
    | unfulfillable _ _ _ _ => exact all_patched hk ho id
    | @billed db₁ no row _ _ _ hsold _ _ =>
        have hsame := (hsold.same .gateway (by decide) (by decide)).1
        rw [← hsame] at hk ho
        exact all_patched hk ho id
  case claimRefunds =>
    obtain ⟨refunds, -, rfl⟩ := claimDueRefunds_moved h
    exact hk
  case recordSend =>
    obtain ⟨refunds, -, rfl⟩ := recordSend_moved h
    exact hk
  case recordFailure =>
    obtain ⟨refunds, -, rfl⟩ := recordFailure_moved h
    exact hk
  case settleRefund =>
    obtain ⟨refunds, -, rfl⟩ := settleRefund_moved h
    exact hk
  case retryRefund =>
    obtain ⟨refunds, -, rfl⟩ := retryRefund_moved h
    exact hk

/-! ## In every state the server reaches -/

theorem linesKept_step {op : Op} {db db' : Db} (hk : LinesKept db)
    (h : op.run db = some db') : LinesKept db' where
  pledges := (op.shelfChange h hk).pledges hk.pledges
  sales := (op.shelfChange h hk).sales hk.sales
  requests := requests_nodup_step h hk.requests
  orders := orders_nonneg_step h hk.orders

theorem linesKept_reach {db : Db} (h : server.Reach db) : LinesKept db := by
  refine h.invariant ?_ ?_
  · rintro db ⟨rows, rfl⟩
    exact linesKept_fresh rows
  · intro db op db' _ hk hstep
    exact linesKept_step hk hstep

end Rch

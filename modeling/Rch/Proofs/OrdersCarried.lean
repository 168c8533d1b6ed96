import Rch.Api.Catalog
import Rch.Proofs.LinesKept
import Rch.Proofs.OneTicket

/-!
# A ticket carries the order it went out for

An order's lines are written once, each of something and each item once, and
only its status moves after that. The ticket it goes out on has a line for each
of them, so what is on an order that comes back onto the board was on the
ticket that was withdrawn.
-/

namespace Rch

open Kit

/-! ## What an operation does to the orders -/

/-- The writes of the order book, each with what its door asked. -/
inductive OrderChange (db db' : Db) : Op → Prop
  | still {op : Op} (h : db'.prodOrders = db.prodOrders) : OrderChange db db' op
  | raised {claims : Claims} {body : CreateProdOrderBody} {at_ : Instant} {id : String}
      {o : ProdOrderRow} (h : db.prodOrders.insert? id o = some db'.prodOrders)
      (hlines : o.lines = foldLines body.lines) (hpos : ∀ l ∈ o.lines, 0 < l.qty) :
      OrderChange db db' (.raiseOrder claims body at_)
  | moved {op : Op} {id : String} {o : ProdOrderRow} {st : PordStatus}
      (ho : db.prodOrders.get? id = some o)
      (hboard : onBoard st = true → onBoard o.status = true)
      (h : db'.prodOrders = db.prodOrders.modify id fun o => { o with status := st }) :
      OrderChange db db' op
  | reopened {claims : Claims} {tid reason : String} {at_ : Instant} {t : TicketRow}
      (ht : db.tickets.get? tid = some t) (hst : t.st = .issued)
      (href : t.refType = .prodOrder)
      (h : db'.prodOrders =
        db.prodOrders.modify t.refId fun o => { o with status := .ready }) :
      OrderChange db db' (.cancelTicket claims tid reason at_)

/-- Only what stands on the board, or went out from it, moves there. -/
theorem onBoard_of_transition {now next : PordStatus} (hout : now ≠ .dispatched)
    (h : canTransition prodOrderTransitions now next = true) : onBoard now = true := by
  cases now with
  | dispatched => exact absurd rfl hout
  | declined => cases next <;> cases h
  | new => rfl
  | accepted => rfl
  | inKitchen => rfl
  | ready => rfl

theorem Op.orders {op : Op} {db db' : Db} (h : op.run db = some db') :
    OrderChange db db' op := by
  by_cases hp : .boards ∈ op.touches
  case neg => exact .still (op.frame h hp).1
  cases op <;> simp only [Op.run, toOption_eq_some, Op.touches,
    List.mem_cons, List.not_mem_nil, or_false, reduceCtorEq] at h hp
  case cancelTicket claims tid reason at_ =>
    obtain ⟨t, ht, hst, hr⟩ := cancelTicket_boards h
    obtain ⟨-, horders, -⟩ := reopenDocument_boards hr
    change db'.prodOrders = if t.refType = .prodOrder then
      db.prodOrders.modify t.refId fun o => { o with status := .ready }
      else db.prodOrders at horders
    split at horders
    · next href => exact .reopened ht hst href horders
    · exact .still horders
  case dispatchOrder claims id draw at_ =>
    obtain ⟨o, draft, no, db₁, ho, -, -, hs, rfl⟩ := dispatchOrder_ok h
    have hsame := hs.wrote.same .boards (by decide) (by decide)
    have hoff : onBoard .dispatched = true → onBoard o.status = true := by
      intro hb
      cases hb
    refine .moved ho hoff ?_
    unfold setProdOrderStatus
    dsimp only
    rw [hsame.1]
  case answerShopAsk =>
    obtain ⟨a, draft, no, db₁, -, -, -, hs, rfl⟩ := answerShopAsk_ok h
    exact .still (hs.wrote.same .boards (by decide) (by decide)).1
  case raiseOrder claims body at_ =>
    unfold Rch.raiseOrder allocateId at h
    simp only [bind_ok, checkEach_ok, assertRule_ok, assertOpen_ok,
      orInternal_ok, exists_const, pure_ok] at h
    obtain ⟨-, outlet, -, -, -, hpos, -, -, prodOrders, hins, rfl⟩ := h
    exact .raised hins rfl hpos
  case setOrderStatus id st =>
    have hset := setOrderStatus_ok h
    unfold Rch.setOrderStatus at h
    simp only [bind_ok, orNotFound_ok, assertRule_ok, exists_const] at h
    obtain ⟨o, ho, hst, hout, htr, -⟩ := h
    have hboard : onBoard st = true → onBoard o.status = true :=
      fun _ => onBoard_of_transition hout htr
    refine .moved ho hboard ?_
    rw [hset]
    rfl
  case askShop =>
    obtain ⟨_, shopAsks, -, rfl⟩ := askShop_ok h
    exact .still rfl
  case declineShopAsk =>
    obtain ⟨_, rfl⟩ := declineShopAsk_ok h
    exact .still rfl

/-! ## What an operation does to the tickets -/

def TicketRow.cargo (t : TicketRow) : TicketRefType × String × List Line :=
  (t.refType, t.refId, t.lines)

/-- A ticket is written once, and what it was written for stays on it. -/
inductive CargoChange (db db' : Db) : Prop
  | still (h : db'.tickets.look TicketRow.cargo = db.tickets.look TicketRow.cargo)
  | sent {draft : TicketDraft} {no : TicketNumber} {db₁ : Db} (hs : Sent db draft no db₁)
      (ht : db'.tickets = db₁.tickets)
      (href : draft.refType = .prodOrder → ∃ o, db.prodOrders.get? draft.refId = some o ∧
        draft.lines = (foldLines (o.lines.map Line.input)).map Line.input)

theorem dispatchOrder_lines {db db' : Db} {claims : Claims} {id : String}
    {draw : OtpDraw} {at_ : Instant} (h : dispatchOrder db claims id draw at_ = .ok db') :
    ∃ o draft no db₁, db.prodOrders.get? id = some o ∧ draft.refId = id ∧
      draft.lines = (foldLines (o.lines.map Line.input)).map Line.input ∧
      Sent db draft no db₁ ∧ db' = setProdOrderStatus db₁ id .dispatched := by
  unfold dispatchOrder allocateTicket at h
  simp only [bind_ok, assertRule_ok, orNotFound_ok, assertEach_ok,
    exists_const, pure_ok] at h
  obtain ⟨o, ho, -, -, -, hshort, db₁, hw, rfl⟩ := h
  refine ⟨o, _, _, db₁, ho, rfl, rfl, ⟨?_, _, writeTicket_ok hw⟩, rfl⟩
  intro l hl
  have hcov := List.filter_eq_nil_iff.1 hshort l
    (mem_ticketLinesOf_input (foldLines_nodup _) hl)
  rwa [decide_eq_true_iff, not_lt, lockBalances_freeAt] at hcov

theorem Op.cargo {op : Op} {db db' : Db} (h : op.run db = some db') (hk : LinesKept db) :
    CargoChange db db' := by
  have hsent {draft : TicketDraft} {no : TicketNumber} {db₁ : Db} (hs : Sent db draft no db₁)
      (hty : draft.refType ≠ .prodOrder) (ht : db'.tickets = db₁.tickets) :
      CargoChange db db' := .sent hs ht fun hp => absurd hp hty
  by_cases hp : .tickets ∈ op.touches
  case neg => exact .still (congrArg (Table.look · TicketRow.cargo) (op.frame h hp))
  cases op <;> simp only [Op.run, toOption_eq_some, map_ok, Op.touches,
    List.mem_cons, List.not_mem_nil, or_false, reduceCtorEq] at h hp
  case handover =>
    obtain ⟨⟨db₁, e⟩, h, rfl⟩ := h
    obtain ⟨t, ht, hst, rfl | ⟨moves, rfl, -, rfl⟩⟩ := handover_ok h
    · exact .still (Table.look_of_view (Table.view_modify fun _ => rfl))
    · exact .still (Table.look_of_view (Table.view_modify fun _ => rfl))
  case receive =>
    obtain ⟨t, ht, hst, rfl⟩ := receive_ok h
    exact .still (Table.look_of_view (Table.view_modify fun _ => rfl))
  case cancelTicket claims id reason at_ =>
    obtain ⟨t, ht, hst, hr⟩ := cancelTicket_boards h
    have htickets : db'.tickets =
        db.tickets.modify id fun t => { t with st := .cancelled } :=
      (reopenDocument_boards hr).1
    refine .still ?_
    rw [htickets]
    exact Table.look_of_view (Table.view_modify fun _ => rfl)
  case transfer =>
    obtain ⟨draft, no, hty, -, hs⟩ := transfer_ok h
    exact hsent hs (by rw [hty]; decide) rfl
  case distribute =>
    obtain ⟨draft, no, hty, -, hs⟩ := distribute_ok h
    exact hsent hs (by rw [hty]; decide) rfl
  case redirectRequest =>
    obtain ⟨r, draft, no, db₁, hr, -, hty, -, -, hs, rfl⟩ := redirectRequest_ok h
    exact hsent (hs (hk.requests _ r hr)) (by rw [hty]; decide) rfl
  case issueRequest =>
    obtain ⟨r, draft, no, db₁, -, -, hty, -, hs, rfl⟩ := issueRequest_ok h
    exact hsent hs (by rw [hty]; decide) rfl
  case dispatchOrder =>
    obtain ⟨o, draft, no, db₁, ho, hid, hlines, hs, rfl⟩ := dispatchOrder_lines h
    exact .sent hs rfl fun _ => ⟨o, hid ▸ ho, hlines⟩
  case answerShopAsk =>
    obtain ⟨a, draft, no, db₁, -, hty, -, hs, rfl⟩ := answerShopAsk_ok h
    exact hsent hs (by rw [hty]; decide) rfl

/-! ## In every state the server reaches -/

/-- An order's lines are of something, an item on one of them. -/
def ProdOrderRow.Lined (o : ProdOrderRow) : Prop :=
  (o.lines.map Line.it).Nodup ∧ ∀ l ∈ o.lines, 0 < l.qty

structure OrdersCarried (db : Db) : Prop where
  lined : db.prodOrders.All fun _ o => o.Lined
  carried : ∀ tid t, db.tickets.get? tid = some t → t.refType = .prodOrder →
    ∃ o, db.prodOrders.get? t.refId = some o ∧
      ∀ l ∈ o.lines, l.it ∈ t.lines.map Line.it

/-- Lines that repeat no item fold to themselves. -/
theorem mem_foldLines_input {lines : List Line} (hn : (lines.map Line.it).Nodup) {l : Line}
    (hl : l ∈ lines) : l ∈ foldLines (lines.map Line.input) := by
  have hn' : ((lines.map Line.input).map LineInput.it).Nodup := by
    rw [List.map_map]
    exact hn
  have hinput : l.input ∈ lines.map Line.input := List.mem_map_of_mem hl
  obtain ⟨p, hp, hit⟩ : ∃ p ∈ foldLines (lines.map Line.input), p.it = l.it := by
    have hkey : l.it ∈ (accumulate LineInput.it
        (fun x l => round3 ((x : ℚ) + l.qty)) (0 : Qty) (lines.map Line.input)).map
          Prod.fst := mem_keys_accumulate.2 ⟨_, hinput, rfl⟩
    obtain ⟨p, hp, hpk⟩ := List.mem_map.1 hkey
    exact ⟨⟨p.1, p.2⟩, List.mem_map_of_mem hp, hpk⟩
  have hqty := mem_foldLines_qty hp
  rw [hit] at hqty
  have hsame : p.qty = l.qty := by
    rw [hqty]
    refine (sumOn_eq_of_mem hn' hinput fun b => round3 b.qty).trans ?_
    exact round3_qty l.qty
  have heq : p = l := by
    cases p
    cases l
    simp_all
  exact heq ▸ hp

theorem mem_ticketLinesOf_lined {lines : List Line} (hn : (lines.map Line.it).Nodup)
    (hpos : ∀ l ∈ lines, 0 < l.qty) {l : Line} (hl : l ∈ lines) :
    l ∈ ticketLinesOf ((foldLines (lines.map Line.input)).map Line.input) := by
  have hfold := mem_foldLines_input hn hl
  refine List.mem_filter.2 ⟨mem_foldLines_input (foldLines_nodup _) hfold, ?_⟩
  exact decide_eq_true (hpos l hl).ne'

theorem OrderChange.lined {op : Op} {db db' : Db} (hc : OrderChange db db' op)
    (h : db.prodOrders.All fun _ o => o.Lined) : db'.prodOrders.All fun _ o => o.Lined := by
  cases hc with
  | still hsame => exact hsame ▸ h
  | raised hins hlines hpos =>
      exact h.insert hins ⟨by rw [hlines]; exact foldLines_nodup _, hpos⟩
  | moved ho hboard hmod =>
      rw [hmod]
      exact h.modify fun r _ hr => hr
  | reopened ht hst href hmod =>
      rw [hmod]
      exact h.modify fun r _ hr => hr

theorem OrderChange.lines {op : Op} {db db' : Db} (hc : OrderChange db db' op) {id : String}
    {o : ProdOrderRow} (ho : db.prodOrders.get? id = some o) :
    ∃ o', db'.prodOrders.get? id = some o' ∧ o'.lines = o.lines := by
  have hmodify {k : String} {st : PordStatus}
      (h : db'.prodOrders = db.prodOrders.modify k fun o => { o with status := st }) :
      ∃ o', db'.prodOrders.get? id = some o' ∧ o'.lines = o.lines := by
    rw [h, Table.get?_modify, ho]
    split
    · exact ⟨_, rfl, rfl⟩
    · exact ⟨o, rfl, rfl⟩
  cases hc with
  | still hsame => exact ⟨o, hsame ▸ ho, rfl⟩
  | raised hins hlines hpos =>
      refine ⟨o, ?_, rfl⟩
      rw [Table.get?_insert hins, if_neg]
      · exact ho
      · rintro rfl
        rw [(Table.insert?_eq_some hins).1] at ho
        cases ho
  | moved _ _ hmod => exact hmodify hmod
  | reopened _ _ _ hmod => exact hmodify hmod

theorem ordersCarried_step {op : Op} {db db' : Db} (h : OrdersCarried db)
    (hop : op.run db = some db') (hk : LinesKept db) : OrdersCarried db' := by
  have hc := op.orders hop
  refine ⟨hc.lined h.lined, fun tid t ht href => ?_⟩
  -- A ticket there was goes for an order there still is.
  have hold {t₀ : TicketRow} (ht₀ : db.tickets.get? tid = some t₀) (hsame : t₀.cargo = t.cargo) :
      ∃ o, db'.prodOrders.get? t.refId = some o ∧
        ∀ l ∈ o.lines, l.it ∈ t.lines.map Line.it := by
    obtain ⟨hty, hid, hlines⟩ : t₀.refType = t.refType ∧ t₀.refId = t.refId ∧
        t₀.lines = t.lines := by
      simpa [TicketRow.cargo] using hsame
    obtain ⟨o, ho, hon⟩ := h.carried tid t₀ ht₀ (hty.trans href)
    obtain ⟨o', ho', hkept⟩ := hc.lines ho
    exact ⟨o', hid ▸ ho', by rw [hkept, ← hlines]; exact hon⟩
  cases op.cargo hop hk with
  | still hlook =>
      have hview := congrFun hlook tid
      rw [Table.look_of_get? ht] at hview
      obtain ⟨t₀, ht₀, hsame⟩ := Table.look_eq_some.1 hview.symm
      exact hold ht₀ hsame
  | @sent draft no db₁ hs htickets hfor =>
      obtain ⟨cells, hw⟩ := hs.wrote
      rw [htickets, Table.get?_insert hw.tickets] at ht
      split at ht
      · next hid =>
          obtain rfl := Option.some.inj ht
          obtain ⟨o, ho, hlines⟩ := hfor href
          obtain ⟨o', ho', hkept⟩ := hc.lines ho
          refine ⟨o', ho', fun l hl => ?_⟩
          rw [hkept] at hl
          have hlined := h.lined _ o ho
          refine List.mem_map_of_mem (f := Line.it) ?_
          change l ∈ ticketLinesOf draft.lines
          rw [hlines]
          exact mem_ticketLinesOf_lined hlined.1 hlined.2 hl
      · exact hold ht rfl

theorem ordersCarried_reach {db : Db} (h : server.Reach db) : OrdersCarried db := by
  refine h.invariant ?_ fun db op db' hr hc hstep =>
    ordersCarried_step hc hstep (linesKept_reach hr)
  rintro db ⟨rows, rfl⟩
  refine ⟨Table.all_empty _, fun tid t ht => ?_⟩
  cases ht

end Rch

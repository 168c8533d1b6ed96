import Rch.Kit.Voucher
import Rch.Proofs.KeyShapes

/-!
# One ticket for an order, one for an ask

A kitchen order that says Dispatched and a shop ask that says Sent are each out
on a ticket, and a ticket is the voucher they are out on. The statuses that
undo that stand in the same tables as the ordinary ones, so it is the doors
that keep the two sides together: a dispatch or a grant writes the ticket with
the status, and only the cancellation of a ticket takes the way back.

An ask names its ticket and an order does not; otherwise the two are one
argument, made once for both.
-/

namespace Rch

open Kit

/-! ## Orders, asks and tickets as documents and vouchers -/

/-- A ticket, where it was written for a document of this type. -/
def TicketRow.voucher (type : TicketRefType) (t : TicketRow) :
    Option (Voucher String) :=
  if t.refType = type then some ⟨t.refId, decide (t.st ≠ .cancelled)⟩ else none

def vouchersOf (type : TicketRefType) (tickets : Table String TicketRow)
    (tid : String) : Option (Voucher String) :=
  (tickets.get? tid).bind (TicketRow.voucher type)

def ProdOrderRow.outing (o : ProdOrderRow) : Outing String :=
  if o.status = .dispatched then .out else .idle

def ShopAskRow.outing (a : ShopAskRow) : Outing String :=
  if a.status = .sent then a.ticketId.elim .out .outOn else .idle

def ShopAskRow.Granted (a : ShopAskRow) : Prop :=
  a.status = .sent → (∃ tid, a.ticketId = some tid) ∧
    ∃ q, a.grantedQty = some q ∧ 0 < q ∧ q ≤ a.qty

structure BoardsKept (db : Db) : Prop where
  orders : OneLive (db.prodOrders.look ProdOrderRow.outing)
    (vouchersOf .prodOrder db.tickets)
  asks : OneLive (db.shopAsks.look ShopAskRow.outing)
    (vouchersOf .shopAsk db.tickets)
  granted : db.shopAsks.All fun _ a => a.Granted

theorem vouchersOf_insert {t t' : Table String TicketRow} {tid : String}
    {row : TicketRow} (h : t.insert? tid row = some t') (type : TicketRefType) :
    vouchersOf type t' =
      Function.update (vouchersOf type t) tid (row.voucher type) := by
  funext k
  rw [vouchersOf, Table.get?_insert h]
  by_cases hk : k = tid
  · subst hk
    rw [if_pos rfl, Function.update_self, Option.bind_some]
  · rw [if_neg hk, Function.update_of_ne hk, vouchersOf]

theorem vouchersOf_modify {t : Table String TicketRow} {tid : String}
    {row : TicketRow} (h : t.get? tid = some row) (f : TicketRow → TicketRow)
    (type : TicketRefType) :
    vouchersOf type (t.modify tid f) =
      Function.update (vouchersOf type t) tid ((f row).voucher type) := by
  funext k
  rw [vouchersOf]
  by_cases hk : k = tid
  · subst hk
    rw [Table.get?_modify_self, h, Function.update_self, Option.map_some,
      Option.bind_some]
  · rw [Table.get?_modify_ne _ _ hk, Function.update_of_ne hk, vouchersOf]

theorem vouchersOf_insert_other {t t' : Table String TicketRow} {tid : String}
    {row : TicketRow} (h : t.insert? tid row = some t') {type : TicketRefType}
    (htype : row.refType ≠ type) : vouchersOf type t' = vouchersOf type t := by
  rw [vouchersOf_insert h, TicketRow.voucher, if_neg htype]
  apply Function.update_eq_self_iff.2
  rw [vouchersOf, (Table.insert?_eq_some h).1, Option.bind_none]

/-- A ticket rewritten without being withdrawn. -/
theorem vouchersOf_modify_same {t : Table String TicketRow} {tid : String}
    {row : TicketRow} (h : t.get? tid = some row) {f : TicketRow → TicketRow}
    {type : TicketRefType} (hf : (f row).voucher type = row.voucher type) :
    vouchersOf type (t.modify tid f) = vouchersOf type t := by
  rw [vouchersOf_modify h, hf]
  apply Function.update_eq_self_iff.2
  rw [vouchersOf, h, Option.bind_some]

/-! ## What an operation does to a board -/

section Board

variable {ρ : Type} (type : TicketRefType) (outing : ρ → Outing String)

/-- A board and the tickets, before an operation and after it. -/
inductive BoardStep (docs docs' : Table String ρ)
    (tickets tickets' : Table String TicketRow) : Prop
  | still (hd : docs'.look outing = docs.look outing)
      (ht : vouchersOf type tickets' = vouchersOf type tickets)
  | raised {id : String} {r : ρ} (hd : docs.insert? id r = some docs')
      (hr : outing r = .idle)
      (ht : vouchersOf type tickets' = vouchersOf type tickets)
  | issued {id tid : String} {r : ρ} {f : ρ → ρ} {t : TicketRow}
      (hid : docs.get? id = some r) (hr : outing r = .idle)
      (hd : docs' = docs.modify id f)
      (hf : outing (f r) = .out ∨ outing (f r) = .outOn tid)
      (ht : tickets.insert? tid t = some tickets')
      (hv : t.voucher type = some ⟨id, true⟩)
  | withdrawn {id tid : String} {f : ρ → ρ} {t : TicketRow}
      {g : TicketRow → TicketRow} (htid : tickets.get? tid = some t)
      (hv : t.voucher type = some ⟨id, true⟩)
      (hd : docs' = docs.modify id f) (hf : ∀ r, outing (f r) = .idle)
      (ht : tickets' = tickets.modify tid g)
      (hg : (g t).voucher type = some ⟨id, false⟩)

variable {type outing} {docs docs' : Table String ρ}
variable {tickets tickets' : Table String TicketRow}

theorem oneLive_board (h : OneLive (docs.look outing) (vouchersOf type tickets))
    (hs : BoardStep type outing docs docs' tickets tickets') :
    OneLive (docs'.look outing) (vouchersOf type tickets') := by
  cases hs with
  | still hd ht =>
      rw [hd, ht]
      exact h
  | raised hd hr ht =>
      rw [Table.look_insert hd, ht, hr]
      exact h.raised (Table.look_eq_none.2 (Table.insert?_eq_some hd).1)
  | issued hid hr hd hf ht hv =>
      rw [hd, Table.look_modify hid, vouchersOf_insert ht, hv]
      refine h.issued (hr ▸ Table.look_of_get? hid outing) ?_ hf
      rw [vouchersOf, (Table.insert?_eq_some ht).1, Option.bind_none]
  | @withdrawn id tid f t g htid hv hd hf ht hg =>
      have hlive : LiveFor (vouchersOf type tickets) id tid := by
        rw [LiveFor, vouchersOf, htid, Option.bind_some, hv]
      obtain ⟨s, hs⟩ := Option.isSome_iff_exists.1 (h.known tid _ hlive)
      obtain ⟨r, hid, -⟩ := Table.look_eq_some.1 hs
      rw [hd, Table.look_modify hid, hf, ht, vouchersOf_modify htid, hg]
      exact h.withdrawn hlive

end Board

/-! ## What the doors check -/

theorem dispatchOrder_open {db db' : Db} {claims : Claims} {id : String}
    {draw : OtpDraw} {at_ : Instant}
    (h : dispatchOrder db claims id draw at_ = .ok db') {o : ProdOrderRow}
    (ho : db.prodOrders.get? id = some o) : o.status ≠ .dispatched := by
  unfold dispatchOrder at h
  simp only [bind_ok, assertRule_ok, orNotFound_ok, exists_const] at h
  obtain ⟨o', ho', hst, -⟩ := h
  obtain rfl : o = o' := Option.some.inj (ho.symm.trans ho')
  intro hd
  rw [hd] at hst
  cases hst

/-- The board never moves an order into Dispatched, or out of it. -/
theorem setOrderStatus_board {db db' : Db} {id : String} {st : PordStatus}
    (h : setOrderStatus db id st = .ok db') :
    st ≠ .dispatched ∧
      ∃ o, db.prodOrders.get? id = some o ∧ o.status ≠ .dispatched := by
  unfold setOrderStatus at h
  simp only [bind_ok, orNotFound_ok, assertRule_ok, exists_const] at h
  obtain ⟨o, ho, hst, hout, -⟩ := h
  exact ⟨hst, o, ho, hout⟩

theorem raiseOrder_new {db db' : Db} {claims : Claims}
    {body : CreateProdOrderBody} {at_ : Instant}
    (h : raiseOrder db claims body at_ = .ok db') :
    ∃ id o, db.prodOrders.insert? id o = some db'.prodOrders ∧
      o.status = .new := by
  unfold raiseOrder allocateId at h
  simp only [bind_ok, checkEach_ok, assertRule_ok, assertOpen_ok,
    orInternal_ok, exists_const, pure_ok] at h
  obtain ⟨-, outlet, -, -, -, -, -, -, prodOrders, hins, rfl⟩ := h
  exact ⟨_, _, hins, rfl⟩

theorem askShop_new {db db' : Db} {claims : Claims} {body : ShopAskBody}
    {at_ : Instant} (h : askShop db claims body at_ = .ok db') :
    ∃ id a, db.shopAsks.insert? id a = some db'.shopAsks ∧
      a.status = .asked := by
  unfold askShop allocateId at h
  simp only [bind_ok, assertRule_ok, assertOpen_ok, orNotFound_ok,
    orInternal_ok, exists_const, pure_ok] at h
  obtain ⟨-, asker, -, holder, -, -, -, -, -, -, -, shopAsks, hins, rfl⟩ := h
  exact ⟨_, _, hins, rfl⟩

theorem mem_askTransitions {now next : ShopAskStatus}
    (h : next ∈ shopAskTransitions now) (hn : next ≠ .asked) :
    now = .asked := by
  cases now <;> simp [shopAskTransitions, hn] at h ⊢

/-- A grant is of something, and of no more than was asked for. -/
theorem answerShopAsk_open {db db' : Db} {claims : Claims} {id : String}
    {grant : ℚ} {draw : OtpDraw} {at_ : Instant}
    (h : answerShopAsk db claims id grant draw at_ = .ok db') {a : ShopAskRow}
    (ha : db.shopAsks.get? id = some a) :
    a.status = .asked ∧ 0 < round3 grant ∧ round3 grant ≤ a.qty := by
  unfold answerShopAsk allocateTicket at h
  simp only [bind_ok, assertRule_ok, orNotFound_ok, requireLocOf_ok,
    assertTransition_ok, exists_const, pure_ok] at h
  obtain ⟨a', ha', -, hst, item, -, hpos, hle, -, db₁, hw, rfl⟩ := h
  obtain rfl : a = a' := Option.some.inj (ha.symm.trans ha')
  refine ⟨mem_askTransitions hst (by decide), ?_, round3_le_of_le hle⟩
  -- A grant that rounds away leaves the ticket no line, and it is refused.
  have hwrote := writeTicket_ok hw
  obtain ⟨l, hl⟩ := List.exists_mem_of_ne_nil _ hwrote.loaded
  have hheld := (reserve_ok hwrote.stock).1 _ (List.mem_map.2 ⟨l, hl, rfl⟩)
  rwa [(mem_ticketLinesOf_single hl).2, round3_qty, round3_qty] at hheld

theorem declineShopAsk_board {db db' : Db} {claims : Claims} {id reason : String}
    (h : declineShopAsk db claims id reason = .ok db') :
    ∃ a f, db.shopAsks.get? id = some a ∧ a.status = .asked ∧
      db'.shopAsks = db.shopAsks.modify id f ∧ db'.prodOrders = db.prodOrders ∧
      (f a).status = .declined := by
  unfold declineShopAsk at h
  simp only [bind_ok, orNotFound_ok, requireLocOf_ok, assertRule_ok,
    assertTransition_ok, exists_const, pure_ok] at h
  obtain ⟨a, ha, -, -, hst, rfl⟩ := h
  exact ⟨a, fun a =>
    { a with status := .declined, reason := some (trim reason) }, ha,
    mem_askTransitions hst (by decide), rfl, rfl, rfl⟩

/-- A withdrawn ticket's document goes back on its board, if it has one. -/
theorem reopenDocument_boards {db db' : Db} {t : TicketRow}
    (h : reopenDocument db t = .ok db') :
    db'.tickets = db.tickets ∧
      db'.prodOrders = (if t.refType = .prodOrder then
        db.prodOrders.modify t.refId fun o => { o with status := .ready }
      else db.prodOrders) ∧
      db'.shopAsks = (if t.refType = .shopAsk then
        db.shopAsks.modify t.refId fun a =>
          { a with status := .asked, grantedQty := none, ticketId := none }
      else db.shopAsks) := by
  unfold reopenDocument at h
  split at h
  · next ht =>
      rw [ht, if_neg (by decide), if_neg (by decide)]
      split at h
      · cases h
        exact ⟨rfl, rfl, rfl⟩
      · simp only [bind_ok, assertRule_ok, exists_const, pure_ok] at h
        obtain ⟨-, rfl⟩ := h
        exact ⟨rfl, rfl, rfl⟩
  · next ht =>
      rw [ht, if_pos rfl, if_neg (by decide)]
      split at h
      · next hnone =>
          cases h
          exact ⟨rfl, (Table.modify_of_free hnone _).symm, rfl⟩
      · simp only [bind_ok, assertRule_ok, exists_const, pure_ok] at h
        obtain ⟨-, rfl⟩ := h
        exact ⟨rfl, rfl, rfl⟩
  · next ht =>
      rw [ht, if_neg (by decide), if_pos rfl]
      split at h
      · next hnone =>
          cases h
          exact ⟨rfl, rfl, (Table.modify_of_free hnone _).symm⟩
      · simp only [bind_ok, assertTransition_ok, exists_const, pure_ok] at h
        obtain ⟨-, rfl⟩ := h
        exact ⟨rfl, rfl, rfl⟩
  · next ht =>
      rw [ht, if_neg (by decide), if_neg (by decide)]
      cases h
      exact ⟨rfl, rfl, rfl⟩
  · next ht =>
      rw [ht, if_neg (by decide), if_neg (by decide)]
      cases h
      exact ⟨rfl, rfl, rfl⟩

theorem cancelTicket_boards {db db' : Db} {claims : Claims} {id reason : String}
    {at_ : Instant} (h : cancelTicket db claims id reason at_ = .ok db') :
    ∃ t, db.tickets.get? id = some t ∧ t.st = .issued ∧
      reopenDocument (voidTicket db id at_) t = .ok db' := by
  unfold cancelTicket at h
  simp only [bind_ok, assertRule_ok, orNotFound_ok, requireLocOf_ok,
    canTransition_iff, exists_const] at h
  obtain ⟨t, ht, -, -, hst, h⟩ := h
  refine ⟨t, ht, ?_, h⟩
  cases hs : t.st <;> simp [hs, ticketTransitions] at hst ⊢

/-! ## Operation by operation -/

theorem WroteTicket.vouchers {db db' : Db} {draft : TicketDraft}
    {no : TicketNumber} (h : WroteTicket db draft no db') {type : TicketRefType}
    (htype : draft.refType ≠ type) :
    vouchersOf type db'.tickets = vouchersOf type db.tickets := by
  obtain ⟨cells, hw⟩ := h
  exact vouchersOf_insert_other hw.tickets htype

theorem vouchersOf_scan {t : Table String TicketRow} {tid : String}
    {row : TicketRow} (h : t.get? tid = some row) {f : TicketRow → TicketRow}
    (href : (f row).refType = row.refType ∧ (f row).refId = row.refId)
    (hst : row.st ≠ .cancelled) (hst' : (f row).st ≠ .cancelled)
    (type : TicketRefType) :
    vouchersOf type (t.modify tid f) = vouchersOf type t := by
  refine vouchersOf_modify_same h ?_
  rw [TicketRow.voucher, TicketRow.voucher, href.1, href.2, decide_eq_true hst,
    decide_eq_true hst']

/-- An operation that moves neither board writes no ticket for one. -/
theorem Op.vouchers {op : Op} {db db' : Db} (h : op.run db = some db')
    (hp : .boards ∉ op.touches) {type : TicketRefType}
    (htype : type = .prodOrder ∨ type = .shopAsk) :
    vouchersOf type db'.tickets = vouchersOf type db.tickets := by
  have hne : ∀ {t : TicketRefType}, t = .request ∨ t = .shopTransfer ∨
      t = .direct → t ≠ type := by
    rintro t (rfl | rfl | rfl) <;> rcases htype with rfl | rfl <;> decide
  by_cases ht : .tickets ∈ op.touches
  case neg =>
    have htickets : db'.tickets = db.tickets := op.frame h ht
    rw [htickets]
  cases op <;> simp only [Op.run, toOption_eq_some, map_ok, Op.touches,
    List.mem_cons, List.not_mem_nil, or_false, or_true,
    reduceCtorEq, not_true_eq_false] at h hp ht
  case handover =>
    obtain ⟨⟨db₁, e⟩, h, rfl⟩ := h
    obtain ⟨t, hid, hst, rfl | ⟨moves, rfl, -, rfl⟩⟩ := handover_ok h
    · exact vouchersOf_modify_same hid rfl
    · refine vouchersOf_scan hid ⟨rfl, rfl⟩ ?_ ?_ type
      · exact hst ▸ (by decide)
      · intro hs
        cases hs
  case receive =>
    obtain ⟨t, hid, hst, rfl⟩ := receive_ok h
    refine vouchersOf_scan hid ⟨rfl, rfl⟩ ?_ ?_ type
    · exact hst ▸ (by decide)
    · intro hs
      cases hs
  case transfer =>
    obtain ⟨draft, no, hty, -, hs⟩ := transfer_ok h
    exact hs.wrote.vouchers (hne (.inr (.inl hty)))
  case distribute =>
    obtain ⟨draft, no, hty, -, hs⟩ := distribute_ok h
    exact hs.wrote.vouchers (hne (.inr (.inr hty)))
  case redirectRequest =>
    obtain ⟨r, draft, no, db₁, -, -, hty, -, hw, -, rfl⟩ := redirectRequest_ok h
    exact hw.vouchers (hne (.inr (.inl hty)))
  case issueRequest =>
    obtain ⟨r, draft, no, db₁, -, -, hty, -, hs, rfl⟩ := issueRequest_ok h
    exact hs.wrote.vouchers (hne (.inl hty))

abbrev OrderStep (db db' : Db) : Prop :=
  BoardStep .prodOrder ProdOrderRow.outing db.prodOrders db'.prodOrders
    db.tickets db'.tickets

abbrev AskStep (db db' : Db) : Prop :=
  BoardStep .shopAsk ShopAskRow.outing db.shopAsks db'.shopAsks
    db.tickets db'.tickets

theorem orderStep_still {db db' : Db} (hd : db'.prodOrders = db.prodOrders)
    (ht : vouchersOf .prodOrder db'.tickets =
      vouchersOf .prodOrder db.tickets) : OrderStep db db' :=
  .still (by rw [hd]) ht

theorem askStep_still {db db' : Db} (hd : db'.shopAsks = db.shopAsks)
    (ht : vouchersOf .shopAsk db'.tickets = vouchersOf .shopAsk db.tickets) :
    AskStep db db' :=
  .still (by rw [hd]) ht

theorem look_modify_same {ρ σ : Type} {t : Table String ρ} {k : String} {r : ρ}
    (h : t.get? k = some r) {u : ρ → ρ} {f : ρ → σ} (hu : f (u r) = f r) :
    (t.modify k u).look f = t.look f := by
  rw [Table.look_modify h, hu]
  exact Function.update_eq_self_iff.2 (Table.look_of_get? h f).symm

theorem outing_idle {o : ProdOrderRow} (h : o.status ≠ .dispatched) :
    o.outing = .idle := if_neg h

theorem askOuting_idle {a : ShopAskRow} (h : a.status ≠ .sent) :
    a.outing = .idle := if_neg h

theorem granted_of_not_sent {a : ShopAskRow} (h : a.status ≠ .sent) :
    a.Granted := fun hs => absurd hs h

theorem voucher_other {t : TicketRow} {type : TicketRefType}
    (h : t.refType ≠ type) {f : TicketRow → TicketRow}
    (hf : (f t).refType = t.refType) :
    (f t).voucher type = t.voucher type := by
  rw [TicketRow.voucher, TicketRow.voucher, if_neg h, if_neg (hf ▸ h)]

theorem dispatchOrder_step {db db' : Db} {claims : Claims} {id : String}
    {draw : OtpDraw} {at_ : Instant}
    (h : dispatchOrder db claims id draw at_ = .ok db') :
    OrderStep db db' ∧ AskStep db db' ∧ db'.shopAsks = db.shopAsks := by
  obtain ⟨o, draft, no, db₁, ho, hty, hid, hs, rfl⟩ := dispatchOrder_ok h
  obtain ⟨cells, hw⟩ := hs.wrote
  have hsame := hs.wrote.same .boards nofun nofun
  refine ⟨.issued (f := fun o => { o with status := .dispatched }) ho
    (outing_idle (dispatchOrder_open h ho)) ?_ (.inl (if_pos rfl))
    hw.tickets ?_, askStep_still hsame.2
      (hs.wrote.vouchers (hty ▸ nofun)), hsame.2⟩
  · rw [← hsame.1]
    rfl
  · rw [TicketRow.voucher, newTicket, if_pos hty, hid]
    rfl

theorem answerShopAsk_step {db db' : Db} {claims : Claims} {id : String}
    {grant : ℚ} {draw : OtpDraw} {at_ : Instant}
    (h : answerShopAsk db claims id grant draw at_ = .ok db')
    (hg : db.shopAsks.All fun _ a => a.Granted) :
    OrderStep db db' ∧ AskStep db db' ∧
      db'.shopAsks.All fun _ a => a.Granted := by
  obtain ⟨a, draft, no, db₁, ha, hty, hid, hs, rfl⟩ := answerShopAsk_ok h
  obtain ⟨hst, hpos, hle⟩ := answerShopAsk_open h ha
  obtain ⟨cells, hw⟩ := hs.wrote
  have hsame := hs.wrote.same .boards nofun nofun
  refine ⟨orderStep_still hsame.1 (hs.wrote.vouchers (hty ▸ nofun)),
    .issued (f := fun a =>
      { a with
        status := .sent, grantedQty := some (round3 grant),
        ticketId := some no.id })
      ha (askOuting_idle (hst ▸ nofun)) ?_ (.inr (if_pos rfl)) hw.tickets
      ?_, ?_⟩
  · rw [← hsame.2]
  · rw [TicketRow.voucher, newTicket, if_pos hty, hid]
    rfl
  · change (db₁.shopAsks.modify id _).All _
    rw [hsame.2]
    refine hg.modify fun a' ha' _ _ => ?_
    obtain rfl : a' = a := Option.some.inj (ha'.symm.trans ha)
    exact ⟨⟨no.id, rfl⟩, _, rfl, hpos, hle⟩

theorem cancelTicket_step {db db' : Db} {claims : Claims} {id reason : String}
    {at_ : Instant} (h : cancelTicket db claims id reason at_ = .ok db')
    (hg : db.shopAsks.All fun _ a => a.Granted) :
    OrderStep db db' ∧ AskStep db db' ∧
      db'.shopAsks.All fun _ a => a.Granted := by
  obtain ⟨t, ht, hst, hr⟩ := cancelTicket_boards h
  obtain ⟨htickets, horders, hasks⟩ := reopenDocument_boards hr
  change db'.tickets =
    db.tickets.modify id fun t => { t with st := .cancelled } at htickets
  have hlive : ∀ type, t.refType = type →
      t.voucher type = some ⟨t.refId, true⟩ := by
    rintro type rfl
    rw [TicketRow.voucher, if_pos rfl, hst]
    rfl
  have hdead : ∀ type, t.refType = type →
      TicketRow.voucher type { t with st := .cancelled } =
        some ⟨t.refId, false⟩ := by
    rintro type rfl
    exact if_pos rfl
  have hother : ∀ type, t.refType ≠ type →
      vouchersOf type db'.tickets = vouchersOf type db.tickets := by
    intro type hty
    rw [htickets]
    exact vouchersOf_modify_same ht
      (voucher_other (f := fun t => { t with st := .cancelled }) hty rfl)
  refine ⟨?_, ?_, ?_⟩
  · by_cases hty : t.refType = .prodOrder
    · rw [if_pos hty] at horders
      exact .withdrawn ht (hlive _ hty) horders (fun _ => if_neg nofun) htickets
        (hdead _ hty)
    · rw [if_neg hty] at horders
      exact orderStep_still horders (hother _ hty)
  · by_cases hty : t.refType = .shopAsk
    · rw [if_pos hty] at hasks
      exact .withdrawn ht (hlive _ hty) hasks (fun _ => if_neg nofun) htickets
        (hdead _ hty)
    · rw [if_neg hty] at hasks
      exact askStep_still hasks (hother _ hty)
  · rw [hasks]
    split
    · exact hg.modify fun _ _ _ => granted_of_not_sent nofun
    · exact hg

theorem Op.boards {op : Op} {db db' : Db} (h : op.run db = some db')
    (hg : db.shopAsks.All fun _ a => a.Granted) :
    OrderStep db db' ∧ AskStep db db' ∧
      db'.shopAsks.All fun _ a => a.Granted := by
  by_cases hp : .boards ∈ op.touches
  case neg =>
    have hsame := op.frame h hp
    exact ⟨orderStep_still hsame.1 (op.vouchers h hp (.inl rfl)),
      askStep_still hsame.2 (op.vouchers h hp (.inr rfl)), hsame.2 ▸ hg⟩
  cases op <;> simp only [Op.run, toOption_eq_some, Op.touches,
    List.mem_cons, List.not_mem_nil, or_false, reduceCtorEq] at h hp
  case cancelTicket => exact cancelTicket_step h hg
  case dispatchOrder =>
    obtain ⟨horders, hasks, hsame⟩ := dispatchOrder_step h
    exact ⟨horders, hasks, hsame ▸ hg⟩
  case answerShopAsk => exact answerShopAsk_step h hg
  case raiseOrder =>
    obtain ⟨id, o, hins, hst⟩ := raiseOrder_new h
    obtain ⟨_, prodOrders, -, rfl⟩ := raiseOrder_ok h
    exact ⟨.raised hins (outing_idle (hst ▸ (by decide))) rfl,
      askStep_still rfl rfl, hg⟩
  case setOrderStatus =>
    obtain ⟨hst, o, ho, hout⟩ := setOrderStatus_board h
    cases setOrderStatus_ok h
    refine ⟨.still (look_modify_same ho ?_) rfl, askStep_still rfl rfl, hg⟩
    rw [outing_idle hout]
    exact outing_idle hst
  case askShop =>
    obtain ⟨id, a, hins, hst⟩ := askShop_new h
    obtain ⟨_, shopAsks, -, rfl⟩ := askShop_ok h
    have hidle : a.status ≠ .sent := hst ▸ (by decide)
    exact ⟨orderStep_still rfl rfl, .raised hins (askOuting_idle hidle) rfl,
      hg.insert hins (granted_of_not_sent hidle)⟩
  case declineShopAsk =>
    obtain ⟨a, f, ha, hst, hasks, horders, hf⟩ := declineShopAsk_board h
    obtain ⟨_, rfl⟩ := declineShopAsk_ok h
    have hidle : (f a).status ≠ .sent := hf ▸ (by decide)
    refine ⟨orderStep_still rfl rfl, .still ?_ rfl, ?_⟩
    · rw [hasks]
      refine look_modify_same ha ?_
      rw [askOuting_idle hidle, askOuting_idle (hst ▸ (by decide))]
    · rw [hasks]
      refine hg.modify fun a' ha' _ => ?_
      obtain rfl : a' = a := Option.some.inj (ha'.symm.trans ha)
      exact granted_of_not_sent hidle

theorem boardsKept_fresh (rows : MasterRows) : BoardsKept (Db.fresh rows) where
  orders := ⟨nofun, nofun⟩
  asks := ⟨nofun, nofun⟩
  granted := Table.all_empty _

theorem boardsKept_step {op : Op} {db db' : Db} (hk : BoardsKept db)
    (h : op.run db = some db') : BoardsKept db' := by
  obtain ⟨horders, hasks, hgranted⟩ := op.boards h hk.granted
  exact ⟨oneLive_board hk.orders horders, oneLive_board hk.asks hasks, hgranted⟩

theorem boardsKept_reach {db : Db} (h : server.Reach db) : BoardsKept db := by
  refine h.invariant (I := BoardsKept) ?_ fun _ _ _ _ => boardsKept_step
  rintro db ⟨rows, rfl⟩
  exact boardsKept_fresh rows

/-! ## One live ticket, and the document says so -/

/-- A ticket written for a document, and not cancelled. -/
def LiveTicket (db : Db) (type : TicketRefType) (id tid : String) : Prop :=
  ∃ t, db.tickets.get? tid = some t ∧ t.refType = type ∧ t.refId = id ∧
    t.st ≠ .cancelled

theorem liveTicket_iff {db : Db} {type : TicketRefType} {id tid : String} :
    LiveTicket db type id tid ↔
      LiveFor (vouchersOf type db.tickets) id tid := by
  unfold LiveTicket LiveFor vouchersOf TicketRow.voucher
  rw [Option.bind_eq_some_iff]
  refine exists_congr fun t => and_congr_right fun _ => ?_
  by_cases hty : t.refType = type
  · rw [if_pos hty, Option.some.injEq, Voucher.mk.injEq, decide_eq_true_iff]
    exact ⟨fun h => h.2, fun h => ⟨hty, h⟩⟩
  · rw [if_neg hty]
    exact ⟨fun h => absurd h.1 hty, fun h => nomatch h⟩

/-- A kitchen order is Dispatched exactly when one ticket written for it is not
cancelled, and no such ticket stands otherwise. A shop ask is Sent exactly when
the ticket it names is the only one, and none stands otherwise; what it was
granted is something, and no more than it asked for. -/
theorem one_live_ticket {db : Db} (h : server.Reach db) :
    (∀ id o, db.prodOrders.get? id = some o →
      (o.status = .dispatched ↔ ∃! tid, LiveTicket db .prodOrder id tid) ∧
      (o.status ≠ .dispatched → ∀ tid, ¬ LiveTicket db .prodOrder id tid)) ∧
    ∀ id a, db.shopAsks.get? id = some a →
      (a.status = .sent ↔ ∃ tid, a.ticketId = some tid ∧
        ∀ u, LiveTicket db .shopAsk id u ↔ u = tid) ∧
      (a.status ≠ .sent → ∀ tid, ¬ LiveTicket db .shopAsk id tid) ∧
      (a.status = .sent → ∃ q, a.grantedQty = some q ∧ 0 < q ∧ q ≤ a.qty) := by
  have hk := boardsKept_reach h
  simp only [liveTicket_iff]
  refine ⟨fun id o ho => ?_, fun id a ha => ?_⟩
  · have htells := hk.orders.tells id _ (Table.look_of_get? ho _)
    by_cases hst : o.status = .dispatched
    · rw [ProdOrderRow.outing, if_pos hst] at htells
      obtain ⟨tid, htid⟩ := htells
      refine ⟨iff_of_true hst ⟨tid, (htid tid).2 rfl, fun u => (htid u).1⟩,
        fun hn => absurd hst hn⟩
    · rw [outing_idle hst] at htells
      refine ⟨iff_of_false hst ?_, fun _ => htells⟩
      rintro ⟨tid, htid, -⟩
      exact htells tid htid
  · have htells := hk.asks.tells id _ (Table.look_of_get? ha _)
    by_cases hst : a.status = .sent
    · obtain ⟨⟨tid, hnames⟩, hq⟩ := hk.granted id a ha hst
      rw [ShopAskRow.outing, if_pos hst, hnames] at htells
      exact ⟨iff_of_true hst ⟨tid, hnames, htells⟩, fun hn => absurd hst hn,
        fun _ => hq⟩
    · rw [askOuting_idle hst] at htells
      refine ⟨iff_of_false hst ?_, fun _ => htells, fun hs => absurd hs hst⟩
      rintro ⟨tid, -, htid⟩
      exact htells tid ((htid tid).2 rfl)

def grantRun : List Op :=
  [.createAdjustment ⟨"u1", STORE, true⟩ ⟨"cafe", .count, "", [⟨"milk", 5⟩]⟩ 0,
   .askShop ⟨"u3", "kiosk", false⟩ ⟨"cafe", "milk", 3, ""⟩ 0,
   .answerShopAsk ⟨"u2", "cafe", false⟩ "ASK-063" 2 lowestDraw 0]

theorem one_live_ticket_granted : ∃ db a,
    server.run (Db.fresh corner) grantRun = some db ∧
      db.shopAsks.get? "ASK-063" = some a ∧ a.status = .sent ∧
      (∃ tid, a.ticketId = some tid ∧
        ∀ u, LiveTicket db .shopAsk "ASK-063" u ↔ u = tid) ∧
      ∃ q, a.grantedQty = some q ∧ 0 < q ∧ q ≤ a.qty := by
  have hany : (server.run (Db.fresh corner) grantRun).any (fun db =>
      (db.shopAsks.get? "ASK-063").any fun a =>
        decide (a.status = .sent)) = true := by
    decide +kernel
  obtain ⟨db, hrun, hdb⟩ := (Option.any_eq_true _ _).1 hany
  obtain ⟨a, ha, hst⟩ := (Option.any_eq_true _ _).1 hdb
  have hsent : a.status = .sent := of_decide_eq_true hst
  obtain ⟨hiff, -, hgrant⟩ := (one_live_ticket
    (Machine.reach_run (.init ⟨corner, rfl⟩) hrun)).2 _ a ha
  exact ⟨db, a, hrun, ha, hsent, hiff.1 hsent, hgrant hsent⟩

end Rch

import Rch.Proofs.ShelfSafety

/-!
# The journey of a ticket's stock

A ticket is written twice over: in its own status, and in what the other two
tables show under its number. The open reservations name it while the stock
stands at the source; the ledger names it when the stock leaves and again when
it lands. Different operations write the two, at different times. `JourneyKept`
is the reading that makes them one: under every ticket's number each table
shows exactly what the ticket's status says it should.

Everything about stock in transit is read off that. A ticket's lines leave
once and land once because the ledger's rows under it are its lines, and what
the ledger's ticket rows add up to is what the Collected tickets carry, taken
off.
-/

namespace Rch

open Kit

/-! ## What the tables show under a ticket's number -/

/-- One leg of a ticket's journey, as a ledger row shows it. -/
def MoveRow.leg (id : String) (kind : MoveKind) (m : MoveRow) :
    Option (Cell × Qty) :=
  if m.refType = "ticket" ∧ m.refId = id ∧ m.kind = kind then
    some (m.cell, m.qty)
  else none

def Stock.left (s : Stock) (id : String) : List (Cell × Qty) :=
  s.moves.filterMap (MoveRow.leg id .ticketOut)

def Stock.landed (s : Stock) (id : String) : List (Cell × Qty) :=
  s.moves.filterMap (MoveRow.leg id .ticketIn)

def Stock.heldUnder (s : Stock) (id : String) : List (Cell × Qty) :=
  (s.openHolds.filter fun r => decide (r.ticketId = id)).map fun r =>
    (r.cell, r.qty)

def TicketRow.linesAt (t : TicketRow) (loc : LocKey) (signed : Qty → Qty) :
    List (Cell × Qty) := t.lines.map fun l => (⟨loc, l.it⟩, signed l.qty)

/-- What a ticket's status says should be held, gone and arrived. -/
def TicketRow.holding (t : TicketRow) : List (Cell × Qty) :=
  if t.st = .issued then t.linesAt t.from_ fun q => q else []

def TicketRow.gone (t : TicketRow) : List (Cell × Qty) :=
  if t.st = .collected ∨ t.st = .received then t.linesAt t.from_ fun q => -q
  else []

def TicketRow.arrived (t : TicketRow) : List (Cell × Qty) :=
  if t.st = .received then t.linesAt t.to_ fun q => q else []

/-- The rows of a ticket's two legs. The consumption of what is used as it
lands goes under the ticket's number too, and is not one of them. -/
def MoveRow.carries (m : MoveRow) : Prop :=
  m.refType = "ticket" ∧ (m.kind = .ticketOut ∨ m.kind = .ticketIn)

instance (m : MoveRow) : Decidable m.carries :=
  inferInstanceAs (Decidable (_ ∧ _))

/-- Under every number the tables show what the ticket's status says, and
nothing where there is no ticket. -/
structure JourneyKept (db : Db) : Prop where
  lines : db.tickets.All fun _ t => t.lines ≠ [] ∧ ∀ l ∈ t.lines, 0 < l.qty
  held : ∀ id, db.stock.heldUnder id =
    (db.tickets.get? id).elim [] TicketRow.holding
  left : ∀ id, db.stock.left id = (db.tickets.get? id).elim [] TicketRow.gone
  landed : ∀ id, db.stock.landed id =
    (db.tickets.get? id).elim [] TicketRow.arrived
  named : ∀ m ∈ db.stock.moves, m.carries →
    (db.tickets.get? m.refId).isSome = true

theorem journeyKept_fresh (rows : MasterRows) : JourneyKept (Db.fresh rows) where
  lines := Table.all_empty _
  held _ := rfl
  left _ := rfl
  landed _ := rfl
  named _ hm := absurd hm List.not_mem_nil

/-! ## What a batch adds under a number -/

theorem leg_eq_none {m : MoveRow} (h : m.refType ≠ "ticket") (id : String)
    (kind : MoveKind) : m.leg id kind = none := if_neg fun h' => h h'.1

theorem filterMap_leg_apart {rows : List MoveRow}
    (h : ∀ m ∈ rows, m.refType ≠ "ticket") (id : String) (kind : MoveKind) :
    rows.filterMap (MoveRow.leg id kind) = [] := by
  apply List.filterMap_eq_nil_iff.2
  intro m hm
  exact leg_eq_none (h m hm) id kind

/-- A ticket's lines, posted at one end of it, show as they stand under its
own number and its own kind, and nowhere else. -/
theorem legs_ticketMoves {t : TicketRow} (hpos : ∀ l ∈ t.lines, 0 < l.qty)
    (id : String) (loc : LocKey) {signed : Qty → ℚ} {signed' : Qty → Qty}
    (hround : ∀ q, round3 (signed q) = signed' q)
    (hzero : ∀ q, 0 < q → signed' q ≠ 0) (kind : MoveKind) (by_ : String)
    (at_ : Instant) (id' : String) (kind' : MoveKind) :
    ((ticketMoves t id loc signed kind by_ at_).filter fun m =>
        decide (round3 m.qty ≠ 0)).filterMap
      (fun m => (moveRow 0 m).leg id' kind') =
        if id = id' ∧ kind = kind' then t.linesAt loc signed' else [] := by
  have hall : (ticketMoves t id loc signed kind by_ at_).filter
      (fun m => decide (round3 m.qty ≠ 0)) =
        ticketMoves t id loc signed kind by_ at_ := by
    apply List.filter_eq_self.2
    intro m hm
    obtain ⟨l, hl, rfl⟩ := List.mem_map.1 hm
    rw [decide_eq_true_iff, hround]
    exact hzero _ (hpos l hl)
  rw [hall]
  unfold ticketMoves
  rw [List.filterMap_map]
  split
  · next hk =>
      obtain ⟨rfl, rfl⟩ := hk
      unfold TicketRow.linesAt
      rw [← List.filterMap_eq_map]
      congr 1
      funext l
      simp [MoveRow.leg, moveRow, MoveRow.cell, hround]
  · next hk =>
      apply List.filterMap_eq_nil_iff.2
      intro l _
      exact if_neg fun h => hk h.2

/-- Using up what lands adds no leg. -/
theorem legs_withUseOnArrival (types : ItemKey → Option ItemType)
    (moves : List Move) (id : String) {kind : MoveKind}
    (hkind : kind ≠ .productionConsume) :
    ((withUseOnArrival types moves).filter fun m =>
        decide (round3 m.qty ≠ 0)).filterMap
      (fun m => (moveRow 0 m).leg id kind) =
    (moves.filter fun m => decide (round3 m.qty ≠ 0)).filterMap fun m =>
      (moveRow 0 m).leg id kind := by
  rw [List.filterMap_filter, List.filterMap_filter]
  induction moves with
  | nil => rfl
  | cons m ms ih =>
      unfold withUseOnArrival at ih ⊢
      rw [List.flatMap_cons, List.filterMap_append, ih]
      split
      · have hnone : (moveRow 0 { m with
            qty := -m.qty, kind := .productionConsume }).leg id kind = none :=
          if_neg fun h => hkind h.2.2.symm
        rw [List.filterMap_cons, List.filterMap_cons (l := ms)]
        simp only [List.filterMap_cons, hnone, ite_self, List.filterMap_nil]
        split <;> rfl
      · rw [List.filterMap_cons, List.filterMap_cons (l := ms)]
        simp only [List.filterMap_nil]
        split <;> rfl

/-! ## What an operation does to a journey -/

def TicketRow.trip (t : TicketRow) : TktStatus × LocKey × LocKey × List Line :=
  (t.st, t.from_, t.to_, t.lines)

inductive Trip (db db' : Db) : Prop
  | elsewhere {new : List MoveRow}
      (hm : db'.stock.moves = db.stock.moves ++ new)
      (hnew : ∀ m ∈ new, m.refType ≠ "ticket")
      (hh : db'.stock.openHolds = db.stock.openHolds)
      (ht : db'.tickets.look TicketRow.trip = db.tickets.look TicketRow.trip)
  | sent {draft : TicketDraft} {no : TicketNumber} {db₁ : Db}
      (h : Sent db draft no db₁) (hs : db'.stock = db₁.stock)
      (ht : db'.tickets = db₁.tickets)
  | collected {id : String} {t : TicketRow} {by_ : String} {at_ : Instant}
      (hid : db.tickets.get? id = some t) (hst : t.st = .issued)
      (hs : db'.stock = releaseForTicket (postMoves db.stock
        (ticketMoves t id t.from_ (fun q => -q) .ticketOut by_ at_)) id at_)
      (ht : db'.tickets = db.tickets.modify id fun t =>
        { t with st := .collected, collectedAt := some at_ })
  | received {id : String} {t : TicketRow} {by_ : String} {at_ : Instant}
      (hid : db.tickets.get? id = some t) (hst : t.st = .collected)
      (hs : db'.stock = postMoves db.stock
        (withUseOnArrival (loadItemTypes db.rows)
          (ticketMoves t id t.to_ (fun q => q) .ticketIn by_ at_)))
      (ht : db'.tickets = db.tickets.modify id fun t =>
        { t with st := .received, receivedAt := some at_ })
  | withdrawn {id : String} {t : TicketRow} {at_ : Instant}
      (hid : db.tickets.get? id = some t) (hst : t.st = .issued)
      (hs : db'.stock = releaseForTicket db.stock id at_)
      (ht : db'.tickets = db.tickets.modify id fun t =>
        { t with st := .cancelled })

/-- A batch no ticket is behind, and no ticket touched. -/
theorem Trip.posted {db db' : Db} (cells : List Cell) {moves : List Move}
    (hm : ∀ m ∈ moves, m.refType ≠ "ticket")
    (hs : db'.stock = postMoves (lockBalances db.stock cells) moves)
    (ht : db'.tickets = db.tickets) : Trip db db' := by
  obtain ⟨new, happ, hnew⟩ :=
    postMoves_appends (lockBalances db.stock cells) moves
  refine .elsewhere (hs ▸ happ) (fun r hr => ?_) ?_ (by rw [ht])
  · obtain ⟨m, hmem, id, rfl⟩ := hnew r hr
    exact hm m hmem
  · rw [hs, Stock.openHolds, postMoves_reservations, lockBalances_reservations,
      Stock.openHolds]

theorem Trip.still {db db' : Db} (hs : db'.stock = db.stock)
    (ht : db'.tickets.look TicketRow.trip = db.tickets.look TicketRow.trip) :
    Trip db db' :=
  have hm : db'.stock.moves = db.stock.moves ++ [] := by rw [hs, List.append_nil]
  .elsewhere hm nofun (by rw [hs]) ht

theorem Sold.trip {db db₁ : Db} {i : SaleInput} {at_ : Instant} {no : String}
    {row : BillRow} (h : Sold db i at_ db₁ no row) {db' : Db}
    (hs : db'.stock = db₁.stock) (ht : db'.tickets = db₁.tickets) :
    Trip db db' := by
  have htickets := ht.trans (h.same .tickets nofun nofun)
  obtain ⟨cells, moves, -, -, href, seq, sessions, hdb⟩ := h.exists_moves
  have hstock : db₁.stock = postMoves (lockBalances db.stock cells) moves := by
    rw [hdb]
  refine .posted cells (fun m hm => ?_) (hs.trans hstock) htickets
  rw [(href m hm).2.1]
  decide

/-- Every operation is one leg of one ticket's journey, or none. -/
theorem Op.trip {op : Op} {db db' : Db} (h : op.run db = some db')
    (hk : LinesKept db) (hl : LedgerInv db.stock) : Trip db db' := by
  by_cases hp : .stock ∈ op.touches
  case neg =>
    have hstock := op.frame h hp
    have htickets : db'.tickets = db.tickets :=
      op.frame h fun ht => hp (Op.stock_of_tickets ht)
    exact .still hstock (by rw [htickets])
  cases op <;> simp only [Op.run, toOption_eq_some, map_ok, Op.touches,
    List.mem_cons, List.not_mem_nil, or_false, reduceCtorEq,
    Option.some.injEq] at h hp
  case handover =>
    obtain ⟨⟨db₁, e⟩, h, rfl⟩ := h
    obtain ⟨t, ht, hst, rfl | ⟨moves, rfl, -, rfl⟩⟩ := handover_ok h
    · refine .still rfl (Table.look_of_view (Table.view_modify fun _ => rfl))
    · exact .collected ht hst rfl rfl
  case receive =>
    obtain ⟨t, ht, hst, rfl⟩ := receive_ok h
    exact .received ht hst rfl rfl
  case cancelTicket =>
    obtain ⟨t, ht, hst, hr⟩ := cancelTicket_ok h
    exact .withdrawn ht hst (hr.same .stock (by decide) (by decide))
      (hr.same .tickets (by decide) (by decide))
  case transfer =>
    obtain ⟨draft, no, -, -, hs⟩ := transfer_ok h
    exact .sent hs rfl rfl
  case distribute =>
    obtain ⟨draft, no, -, -, hs⟩ := distribute_ok h
    exact .sent hs rfl rfl
  case redirectRequest =>
    obtain ⟨r, draft, no, db₁, hr, -, -, -, -, hs, rfl⟩ := redirectRequest_ok h
    exact .sent (hs (hk.requests _ r hr)) rfl rfl
  case issueRequest =>
    obtain ⟨r, draft, no, db₁, -, -, -, -, hs, rfl⟩ := issueRequest_ok h
    exact .sent hs rfl rfl
  case dispatchOrder =>
    obtain ⟨o, draft, no, db₁, -, -, -, hs, rfl⟩ := dispatchOrder_ok h
    exact .sent hs rfl rfl
  case answerShopAsk =>
    obtain ⟨a, draft, no, db₁, -, -, -, hs, rfl⟩ := answerShopAsk_ok h
    exact .sent hs rfl rfl
  case makeBatch =>
    obtain ⟨moves, seq, batches, -, -, href, rfl⟩ := makeBatch_ok h
    exact .posted [] href rfl rfl
  case createAdjustment =>
    obtain ⟨cells, moves, adjustments, -, -, href, rfl⟩ := createAdjustment_ok h
    exact .posted cells href rfl rfl
  case approveAdjustmentRequest =>
    obtain ⟨_, f, ⟨cells, moves, adjustments, -, -, href, rfl⟩, rfl⟩ :=
      approveAdjustmentRequest_ok h
    exact .posted cells href rfl rfl
  case receivePo =>
    obtain ⟨moves, grns, purchaseOrders, hm, rfl⟩ := receivePo_ok h
    exact .posted [] (fun m hmem => (hm m hmem).2.2) rfl rfl
  case openStock =>
    obtain ⟨moves, seq, batches, -, -, href, rfl⟩ := openStock_ok h
    exact .posted [] href rfl rfl
  case pay =>
    obtain ⟨no, row, hs⟩ := pay_ok h
    exact hs.trip rfl rfl
  case voidBill =>
    obtain ⟨bill, stamp, -, -, -, hr⟩ := voidBill_ok h
    refine .posted [] (fun m hm => ?_) (hr.same .stock (by decide))
      (hr.same .tickets (by decide))
    obtain ⟨x, -, rfl⟩ := List.mem_map.1 hm
    exact (by decide : "bill" ≠ "ticket")
  case settleCapture =>
    obtain ⟨o, ho, hs⟩ := settleCapture_ok h
    cases hs with
    | again _ => exact .still rfl rfl
    | refundedBefore _ _ _ => exact .still rfl rfl
    | duplicate _ _ _ _ => exact .still rfl rfl
    | unfulfillable _ _ _ _ => exact .still rfl rfl
    | billed _ _ _ hsold _ _ => exact hsold.trip rfl rfl
  case rebuild =>
    subst h
    exact .still (rebuildBalances_eq hl) rfl

/-! ## The reading stays true -/

theorem heldUnder_release (s : Stock) (id : String) (at_ : Instant)
    (id' : String) :
    (releaseForTicket s id at_).heldUnder id' =
      if id' = id then [] else s.heldUnder id' := by
  unfold Stock.heldUnder
  rw [openHolds_release, List.filter_filter]
  split
  · next h =>
      subst h
      have hnone : s.openHolds.filter (fun r =>
          decide (r.ticketId = id') && decide (r.ticketId ≠ id')) = [] := by
        apply List.filter_eq_nil_iff.2
        intro r _ hr
        simp at hr
      rw [hnone, List.map_nil]
  · next h =>
      congr 1
      apply List.filter_congr
      intro r _
      by_cases hr : r.ticketId = id'
      · simp [hr, h]
      · simp [hr]

theorem Sent.heldUnder {db db₁ : Db} {draft : TicketDraft} {no : TicketNumber}
    (h : Sent db draft no db₁) (id : String) :
    db₁.stock.heldUnder id = db.stock.heldUnder id ++
      if id = no.id then (newTicket draft no.otp).holding else [] := by
  unfold Stock.heldUnder
  rw [h.openHolds, List.filter_append, List.map_append]
  congr 1
  split
  · next hid =>
      subst hid
      rw [List.filter_eq_self.2, List.map_map]
      · rfl
      · intro r hr
        obtain ⟨l, -, rfl⟩ := List.mem_map.1 hr
        exact decide_eq_true rfl
  · next hid =>
      rw [List.filter_eq_nil_iff.2, List.map_nil]
      intro r hr
      obtain ⟨l, -, rfl⟩ := List.mem_map.1 hr
      rw [decide_eq_true_iff]
      exact fun h => hid h.symm

/-- What is read off a ticket's journey is read off the part it depends on. -/
theorem elim_of_look {db db' : Db}
    (h : db'.tickets.look TicketRow.trip = db.tickets.look TicketRow.trip)
    {f : TicketRow → List (Cell × Qty)}
    (hf : ∀ t t' : TicketRow, t.trip = t'.trip → f t = f t') (id : String) :
    (db'.tickets.get? id).elim [] f = (db.tickets.get? id).elim [] f := by
  have hid := congrFun h id
  rw [Table.look, Table.look] at hid
  cases hg : db.tickets.get? id with
  | none =>
      rw [hg, Option.map_none, Option.map_eq_none_iff] at hid
      rw [hid]
  | some t =>
      rw [hg, Option.map_some] at hid
      obtain ⟨t', ht', heq⟩ := Option.map_eq_some_iff.1 hid
      rw [ht']
      exact hf t' t heq

theorem holding_congr {t t' : TicketRow} (h : t.trip = t'.trip) :
    t.holding = t'.holding := by
  simp only [TicketRow.trip, Prod.mk.injEq] at h
  obtain ⟨hst, hfrom, -, hlines⟩ := h
  rw [TicketRow.holding, TicketRow.holding, TicketRow.linesAt,
    TicketRow.linesAt, hst, hfrom, hlines]

theorem gone_congr {t t' : TicketRow} (h : t.trip = t'.trip) :
    t.gone = t'.gone := by
  simp only [TicketRow.trip, Prod.mk.injEq] at h
  obtain ⟨hst, hfrom, -, hlines⟩ := h
  rw [TicketRow.gone, TicketRow.gone, TicketRow.linesAt, TicketRow.linesAt,
    hst, hfrom, hlines]

theorem arrived_congr {t t' : TicketRow} (h : t.trip = t'.trip) :
    t.arrived = t'.arrived := by
  simp only [TicketRow.trip, Prod.mk.injEq] at h
  obtain ⟨hst, -, hto, hlines⟩ := h
  rw [TicketRow.arrived, TicketRow.arrived, TicketRow.linesAt,
    TicketRow.linesAt, hst, hto, hlines]

theorem journeyKept_elsewhere {db db' : Db} (hk : JourneyKept db)
    {new : List MoveRow} (hm : db'.stock.moves = db.stock.moves ++ new)
    (hnew : ∀ m ∈ new, m.refType ≠ "ticket")
    (hh : db'.stock.openHolds = db.stock.openHolds)
    (ht : db'.tickets.look TicketRow.trip = db.tickets.look TicketRow.trip) :
    JourneyKept db' where
  lines id t hid := by
    have hlook := congrFun ht id
    rw [Table.look_of_get? hid] at hlook
    obtain ⟨t₀, hid₀, htrip⟩ := Table.look_eq_some.1 hlook.symm
    have hlines : t₀.lines = t.lines := congrArg (fun p => p.2.2.2) htrip
    have hkept : t₀.lines ≠ [] ∧ ∀ l ∈ t₀.lines, 0 < l.qty :=
      hk.lines id t₀ hid₀
    rw [hlines] at hkept
    exact hkept
  held id := by
    rw [elim_of_look ht (fun _ _ => holding_congr), ← hk.held, Stock.heldUnder,
      hh, Stock.heldUnder]
  left id := by
    rw [elim_of_look ht (fun _ _ => gone_congr), ← hk.left, Stock.left, hm,
      List.filterMap_append, filterMap_leg_apart hnew, List.append_nil,
      Stock.left]
  landed id := by
    rw [elim_of_look ht (fun _ _ => arrived_congr), ← hk.landed, Stock.landed,
      hm, List.filterMap_append, filterMap_leg_apart hnew, List.append_nil,
      Stock.landed]
  named m hmem hc := by
    rw [hm] at hmem
    rcases List.mem_append.1 hmem with hmem | hmem
    · have hsome := hk.named m hmem hc
      rw [← Option.isSome_map (f := TicketRow.trip)] at hsome ⊢
      change (db.tickets.look TicketRow.trip m.refId).isSome = true at hsome
      rwa [← ht] at hsome
    · exact absurd hc.1 (hnew m hmem)

theorem newTicket_gone (draft : TicketDraft) (otp : String) :
    (newTicket draft otp).gone = [] := if_neg (by simp [newTicket])

theorem newTicket_arrived (draft : TicketDraft) (otp : String) :
    (newTicket draft otp).arrived = [] := if_neg (by simp [newTicket])

/-- A number a ticket was just written under shows what the new row says;
any other shows what it did. -/
theorem elim_insert {t t' : Table String TicketRow} {id : String}
    {row : TicketRow} (h : t.insert? id row = some t')
    (f : TicketRow → List (Cell × Qty)) (id' : String) :
    (t'.get? id').elim [] f =
      (t.get? id').elim [] f ++ if id' = id then f row else [] := by
  rw [Table.get?_insert h]
  split
  · next hid =>
      rw [hid, (Table.insert?_eq_some h).1]
      rfl
  · rw [List.append_nil]

theorem journeyKept_sent {db db₁ : Db} {draft : TicketDraft}
    {no : TicketNumber} (hk : JourneyKept db) (h : Sent db draft no db₁) :
    JourneyKept db₁ := by
  obtain ⟨cells, hw⟩ := h.wrote
  have hins := hw.tickets
  refine ⟨?_, fun id => ?_, fun id => ?_, fun id => ?_, ?_⟩
  · exact hk.lines.insert hins ⟨hw.loaded, h.lines_pos⟩
  · rw [h.heldUnder, elim_insert hins, hk.held]
    rfl
  · rw [Stock.left, h.moves, elim_insert hins, newTicket_gone, ite_self,
      List.append_nil]
    exact hk.left id
  · rw [Stock.landed, h.moves, elim_insert hins, newTicket_arrived, ite_self,
      List.append_nil]
    exact hk.landed id
  · rw [h.moves]
    intro m hm hc
    rw [Table.get?_insert hins]
    split
    · rfl
    · exact hk.named m hm hc

/-- A rewritten ticket shows what its new row says under its own number, and
every other number what it did. -/
theorem elim_modify {t : Table String TicketRow} {id : String}
    {row : TicketRow} (h : t.get? id = some row) (u : TicketRow → TicketRow)
    (f : TicketRow → List (Cell × Qty)) (id' : String) :
    ((t.modify id u).get? id').elim [] f =
      if id' = id then f (u row) else (t.get? id').elim [] f := by
  rw [Table.get?_modify]
  split
  · next hid =>
      rw [hid, h]
      rfl
  · rfl

theorem isSome_modify (t : Table String TicketRow) (id : String)
    (u : TicketRow → TicketRow) (id' : String) :
    ((t.modify id u).get? id').isSome = (t.get? id').isSome := by
  rw [Table.get?_modify]
  split
  · exact Option.isSome_map
  · rfl

/-- A ticket moved on: under its number the tables now show what its new row
says, and under any other what they did. -/
theorem journeyKept_moved {db db' : Db} {id : String} {t : TicketRow}
    {u : TicketRow → TicketRow} (hk : JourneyKept db)
    (hid : db.tickets.get? id = some t)
    (ht : db'.tickets = db.tickets.modify id u) (hlines : (u t).lines = t.lines)
    (hheld : ∀ id', db'.stock.heldUnder id' =
      if id' = id then (u t).holding else db.stock.heldUnder id')
    (hleft : ∀ id', db'.stock.left id' =
      if id' = id then (u t).gone else db.stock.left id')
    (hlanded : ∀ id', db'.stock.landed id' =
      if id' = id then (u t).arrived else db.stock.landed id')
    (hnamed : ∀ m ∈ db'.stock.moves, m ∈ db.stock.moves ∨ m.refId = id) :
    JourneyKept db' := by
  refine ⟨?_, fun id' => ?_, fun id' => ?_, fun id' => ?_, fun m hm hc => ?_⟩
  · rw [ht]
    refine hk.lines.modify fun t' ht' hl => ?_
    cases hid.symm.trans ht'
    rw [hlines]
    exact hl
  · rw [ht, elim_modify hid, hheld, hk.held]
  · rw [ht, elim_modify hid, hleft, hk.left]
  · rw [ht, elim_modify hid, hlanded, hk.landed]
  · rw [ht, isSome_modify]
    rcases hnamed m hm with hm | hm
    · exact hk.named m hm hc
    · rw [hm, hid]
      rfl

theorem named_postMoves {s : Stock} {moves : List Move} {id : String}
    (h : ∀ m ∈ moves, m.refId = id) :
    ∀ m ∈ (postMoves s moves).moves, m ∈ s.moves ∨ m.refId = id := by
  intro m hm
  rcases mem_postMoves hm with hm | ⟨x, hx, n, rfl⟩
  · exact .inl hm
  · exact .inr (h x hx)

theorem refId_ticketMoves {t : TicketRow} {id : String} {loc : LocKey}
    {signed : Qty → ℚ} {kind : MoveKind} {by_ : String} {at_ : Instant} :
    ∀ m ∈ ticketMoves t id loc signed kind by_ at_, m.refId = id := by
  intro m hm
  obtain ⟨l, -, rfl⟩ := List.mem_map.1 hm
  rfl

theorem refId_withUseOnArrival {types : ItemKey → Option ItemType}
    {moves : List Move} {id : String} (h : ∀ m ∈ moves, m.refId = id) :
    ∀ m ∈ withUseOnArrival types moves, m.refId = id := by
  intro m hm
  obtain ⟨a, ha, hm⟩ := List.mem_flatMap.1 hm
  split at hm
  · rcases List.mem_cons.1 hm with rfl | hm
    · exact h _ ha
    · rw [List.mem_singleton.1 hm]
      exact h a ha
  · rw [List.mem_singleton.1 hm]
    exact h a ha

theorem journeyKept_collected {db db' : Db} {id by_ : String} {t : TicketRow}
    {at_ : Instant} (hk : JourneyKept db) (hid : db.tickets.get? id = some t)
    (hst : t.st = .issued)
    (hs : db'.stock = releaseForTicket (postMoves db.stock
      (ticketMoves t id t.from_ (fun q => -q) .ticketOut by_ at_)) id at_)
    (ht : db'.tickets = db.tickets.modify id fun t =>
      { t with st := .collected, collectedAt := some at_ }) :
    JourneyKept db' := by
  have hlegs := legs_ticketMoves (hk.lines id t hid).2 id t.from_
    (fun q => round3_neg_qty q) (fun q hq => neg_ne_zero.2 hq.ne') .ticketOut
    by_ at_
  have hleft : db.stock.left id = [] := by
    rw [hk.left, hid]
    exact if_neg (by simp [hst])
  have hlanded : db.stock.landed id = [] := by
    rw [hk.landed, hid]
    exact if_neg (by simp [hst])
  refine journeyKept_moved hk hid ht rfl (fun id' => ?_) (fun id' => ?_)
    (fun id' => ?_) (fun m hm => ?_)
  · rw [hs, heldUnder_release]
    unfold Stock.heldUnder Stock.openHolds
    rw [postMoves_reservations]
    rfl
  · rw [hs, Stock.left, release_moves, postMoves_filterMap _ fun _ _ => rfl,
      hlegs]
    change db.stock.left id' ++ _ = _
    by_cases h : id' = id
    · rw [h, hleft, if_pos ⟨rfl, rfl⟩, if_pos rfl, List.nil_append]
      rfl
    · rw [if_neg fun h' => h h'.1.symm, if_neg h, List.append_nil]
  · rw [hs, Stock.landed, release_moves, postMoves_filterMap _ fun _ _ => rfl,
      hlegs, if_neg fun h => nomatch h.2]
    rw [List.append_nil]
    split
    · next h =>
        rw [h]
        exact hlanded
    · rfl
  · rw [hs, release_moves] at hm
    exact named_postMoves refId_ticketMoves m hm

/-- What lands is the ticket's lines, whatever is then used up. -/
theorem journeyKept_received {db db' : Db} {id by_ : String} {t : TicketRow}
    {at_ : Instant} (hk : JourneyKept db) (hid : db.tickets.get? id = some t)
    (hst : t.st = .collected)
    (hs : db'.stock = postMoves db.stock
      (withUseOnArrival (loadItemTypes db.rows)
        (ticketMoves t id t.to_ (fun q => q) .ticketIn by_ at_)))
    (ht : db'.tickets = db.tickets.modify id fun t =>
      { t with st := .received, receivedAt := some at_ }) :
    JourneyKept db' := by
  have hout : MoveKind.ticketOut ≠ .productionConsume := by decide
  have hin : MoveKind.ticketIn ≠ .productionConsume := by decide
  have hlegs := legs_ticketMoves (hk.lines id t hid).2 id t.to_
    (fun q => round3_qty q) (fun q hq => hq.ne') .ticketIn by_ at_
  have hheld : db.stock.heldUnder id = [] := by
    rw [hk.held, hid]
    exact if_neg (by simp [hst])
  have hleft : db.stock.left id = t.linesAt t.from_ fun q => -q := by
    rw [hk.left, hid]
    exact if_pos (.inl hst)
  have hlanded : db.stock.landed id = [] := by
    rw [hk.landed, hid]
    exact if_neg (by simp [hst])
  refine journeyKept_moved hk hid ht rfl (fun id' => ?_) (fun id' => ?_)
    (fun id' => ?_) (fun m hm => ?_)
  · have hsame : db'.stock.heldUnder id' = db.stock.heldUnder id' := by
      rw [hs]
      unfold Stock.heldUnder Stock.openHolds
      rw [postMoves_reservations]
    rw [hsame]
    split
    · next h =>
        rw [h]
        exact hheld
    · rfl
  · rw [hs, Stock.left, postMoves_filterMap _ fun _ _ => rfl,
      legs_withUseOnArrival _ _ _ hout, hlegs, if_neg fun h => nomatch h.2]
    rw [List.append_nil]
    split
    · next h =>
        rw [h]
        exact hleft
    · rfl
  · rw [hs, Stock.landed, postMoves_filterMap _ fun _ _ => rfl,
      legs_withUseOnArrival _ _ _ hin, hlegs]
    change db.stock.landed id' ++ _ = _
    by_cases h : id' = id
    · rw [h, hlanded, if_pos ⟨rfl, rfl⟩, if_pos rfl, List.nil_append]
      rfl
    · rw [if_neg fun h' => h h'.1.symm, if_neg h, List.append_nil]
  · rw [hs] at hm
    exact named_postMoves (refId_withUseOnArrival refId_ticketMoves) m hm

theorem journeyKept_withdrawn {db db' : Db} {id : String} {t : TicketRow}
    {at_ : Instant} (hk : JourneyKept db) (hid : db.tickets.get? id = some t)
    (hst : t.st = .issued) (hs : db'.stock = releaseForTicket db.stock id at_)
    (ht : db'.tickets = db.tickets.modify id fun t =>
      { t with st := .cancelled }) : JourneyKept db' := by
  have hleft : db.stock.left id = [] := by
    rw [hk.left, hid]
    exact if_neg (by simp [hst])
  have hlanded : db.stock.landed id = [] := by
    rw [hk.landed, hid]
    exact if_neg (by simp [hst])
  refine journeyKept_moved hk hid ht rfl (fun id' => ?_) (fun id' => ?_)
    (fun id' => ?_) (fun m hm => ?_)
  · rw [hs, heldUnder_release]
    rfl
  · rw [hs]
    change db.stock.left id' = _
    split
    · next h =>
        rw [h]
        exact hleft
    · rfl
  · rw [hs]
    change db.stock.landed id' = _
    split
    · next h =>
        rw [h]
        exact hlanded
    · rfl
  · rw [hs] at hm
    exact .inl hm

theorem Trip.journeyKept {db db' : Db} (h : Trip db db')
    (hk : JourneyKept db) : JourneyKept db' := by
  cases h with
  | elsewhere hm hnew hh ht => exact journeyKept_elsewhere hk hm hnew hh ht
  | sent hsent hs ht =>
      have hk₁ := journeyKept_sent hk hsent
      have hm : db'.stock.moves = _ ++ [] :=
        (congrArg Stock.moves hs).trans (List.append_nil _).symm
      exact journeyKept_elsewhere hk₁ hm nofun (by rw [hs]) (by rw [ht])
  | collected hid hst hs ht => exact journeyKept_collected hk hid hst hs ht
  | received hid hst hs ht => exact journeyKept_received hk hid hst hs ht
  | withdrawn hid hst hs ht => exact journeyKept_withdrawn hk hid hst hs ht

theorem journeyKept_reach {db : Db} (h : server.Reach db) : JourneyKept db := by
  refine h.invariant ?_ ?_
  · rintro db ⟨rows, rfl⟩
    exact journeyKept_fresh rows
  · intro db op db' hr hk hstep
    exact (op.trip hstep (linesKept_reach hr)
      (ledgerInv_reach (server_stock_reach hr))).journeyKept hk

end Rch

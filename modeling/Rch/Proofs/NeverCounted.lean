import Rch.Proofs.KitchenBare
import Rch.Proofs.OrdersCarried
import Rch.Proofs.TicketJourney
import Rch.Proofs.TicketLink

/-!
# An on/off-only item is not counted

Nothing is on a shelf, on a ticket that is out or on the board of an item the
kitchen switches on and off, as long as no write lands it or orders it and no
change makes an item such a one over what still holds it. Most doors ask; the
ones that do not are what `Op.counts` names.
-/

namespace Rch

open Kit

/-! ## What is uncounted -/

structure Uncounted (db : Db) (it : ItemKey) : Prop where
  bare : ∀ loc, db.stock.onHand ⟨loc, it⟩ = 0
  tickets : ∀ id t, db.tickets.get? id = some t → t.st.live → it ∉ t.lines.map Line.it
  orders : ∀ id o, db.prodOrders.get? id = some o → onBoard o.status = true →
    it ∉ o.lines.map Line.it

/-- The items an operation would put on a shelf or on the board, whatever its
door asks of them. -/
def Op.counts (db : Db) : Op → List ItemKey
  | .makeBatch _ body _ =>
    if 0 < round3 (body.made.getD (round3 body.started)) then [body.it] else []
  | .raiseOrder _ body _ => (foldLines body.lines).map Line.it
  | .receivePo _ id body _ =>
    ((db.purchaseOrders.get? id).map fun o =>
      ((o.lines.zip body.lines).filter fun p => decide (0 < p.2.recv)).map
        fun p => p.1.it).getD []
  | .openStock _ _ key opening _ => if 0 < round3 opening then [key] else []
  | .voidBill _ no _ _ => (saleMovesOf db no).map MoveRow.it
  | op =>
    ((op.correction db).map fun d =>
      ((correctionLines d).filter fun l => decide (0 < l.qty)).map Line.it).getD []

/-! ## A batch that counts nothing of an item -/

/-- What the pairing posts at a cell is what was handed to it there, and what
uses that up. -/
theorem mem_withUseOnArrival_cell {types : ItemKey → Option ItemType} {moves : List Move}
    {m : Move} (h : m ∈ withUseOnArrival types moves) :
    ∃ m₀ ∈ moves, m₀.cell = m.cell ∧ (m = m₀ ∨ 0 < m₀.qty ∧ m.qty = -m₀.qty) := by
  obtain ⟨m₀, hm₀, hm⟩ := List.mem_flatMap.1 h
  refine ⟨m₀, hm₀, ?_⟩
  split at hm
  · next hland =>
      obtain ⟨t, -, ht⟩ := (Option.any_eq_true _ _).1 hland
      rcases List.mem_cons.1 hm with rfl | hm
      · exact ⟨rfl, .inl rfl⟩
      · obtain rfl := List.mem_singleton.1 hm
        exact ⟨rfl, .inr ⟨of_decide_eq_true (Bool.and_eq_true_iff.1 ht).1, rfl⟩⟩
  · obtain rfl := List.mem_singleton.1 hm
    exact ⟨rfl, .inl rfl⟩

/-- A batch that came to nothing lands nothing. -/
theorem makeBatch_nothing {db db' : Db} {claims : Claims} {body : MakeBatchBody}
    {at_ : Instant} (h : makeBatch db claims body at_ = .ok db')
    (hmade : ¬ 0 < round3 (body.made.getD (round3 body.started))) :
    db'.stock = db.stock := by
  simp only [makeBatch, bind_ok, assertRule_ok, orNotFound_ok, exists_const] at h
  obtain ⟨-, -, item, -, -, -, -, -, hw⟩ := h
  unfold writeBatch allocateId at hw
  simp only [bind_ok, guardOr_ok, orInternal_ok, exists_const, pure_ok] at hw
  obtain ⟨-, batches, -, rfl⟩ := hw
  exact if_neg hmade

section Step

variable {op : Op} {db db' : Db} {it : ItemKey}

theorem counts_correction {d : AdjustmentDraft} (hd : op.correction db = some d) :
    op.counts db = ((correctionLines d).filter fun l => decide (0 < l.qty)).map Line.it := by
  have hread : op.counts db = ((op.correction db).map fun d =>
      ((correctionLines d).filter fun l => decide (0 < l.qty)).map Line.it).getD [] := by
    cases op
    case createAdjustment => rfl
    case approveAdjustmentRequest => rfl
    all_goals cases hd
  rw [hread, hd, Option.map_some, Option.getD_some]

theorem Uncounted.entries (hu : Uncounted db it) (hreach : server.Reach db) (loc : LocKey) :
    ((db.stock.entriesAt ⟨loc, it⟩).map Entry.qty).sum = 0 := by
  have hsums := (ledgerInv_reach (server_stock_reach hreach)).sums
  rw [← moved_eq_entries, ← hsums, hu.bare]

/-- Off a bare line only a write that counts lands anything. -/
theorem Uncounted.posts (hu : Uncounted db it) (h : op.run db = some db')
    (hreach : server.Reach db) (hc : it ∉ op.counts db) (loc : LocKey) :
    db'.stock.entriesAt ⟨loc, it⟩ = db.stock.entriesAt ⟨loc, it⟩ := by
  have hk := linesKept_reach hreach
  obtain ⟨moves, hposting, hmoves⟩ := op.posts h hk
  have hentries : db'.stock.entriesAt ⟨loc, it⟩ =
      db.stock.entriesAt ⟨loc, it⟩ ++ entriesOf moves ⟨loc, it⟩ := by
    rw [← entriesAt_postMoves, Stock.entriesAt, hmoves]
    rfl
  have htakes (hneg : ∀ m ∈ moves, m.cell = ⟨loc, it⟩ → m.qty ≤ 0) :=
    op.takes_nothing h hreach hmoves (hu.entries hreach loc) hneg
  suffices hnil : entriesOf moves ⟨loc, it⟩ = [] by rw [hentries, hnil, List.append_nil]
  cases hposting with
  | nothing => rfl
  | handed hticket hm hneg => exact htakes fun m hm _ => hneg m hm
  | sold hraised hnames hneg => exact htakes fun m hm _ => hneg m hm
  | @received claims id at_ t hticket hst =>
      refine entriesOf_nil fun m hm hcell => ?_
      obtain ⟨m₀, hm₀, hsame, -⟩ := mem_withUseOnArrival_cell hm
      obtain ⟨l, hl, rfl⟩ := List.mem_map.1 hm₀
      have hit : l.it = it := congrArg Cell.it (hsame.trans hcell)
      exact absurd (List.mem_map.2 ⟨l, hl, hit⟩) (hu.tickets id t hticket (.inr hst))
  | @batched claims body at_ item made id hitem hfg =>
      by_cases hit : body.it = it
      · have hmade : ¬ 0 < round3 (body.made.getD (round3 body.started)) := by
          intro hmade
          refine hc ?_
          change it ∈ if _ then [body.it] else []
          rw [if_pos hmade, hit]
          exact List.mem_singleton_self it
        have hstill := makeBatch_nothing (toOption_eq_some.1 h) hmade
        rw [hstill] at hentries
        exact List.self_eq_append_right.1 hentries
      · refine entriesOf_nil ?_
        rw [List.forall_mem_singleton]
        exact fun hcell => absurd (congrArg Cell.it hcell) hit
  | @corrected op d id hd hknown =>
      refine htakes fun m hm hcell => ?_
      obtain ⟨m₀, hm₀, hsame, hqty⟩ := mem_withUseOnArrival_cell hm
      obtain ⟨l, hl, rfl⟩ := List.mem_map.1 hm₀
      have hit : l.it = it := congrArg Cell.it (hsame.trans hcell)
      rcases hqty with rfl | ⟨hland, hq⟩
      · refine not_lt.1 fun hpos => hc ?_
        rw [counts_correction hd]
        exact List.mem_map.2 ⟨l, List.mem_filter.2
          ⟨hl, decide_eq_true (Decimal.toRat_pos.1 hpos)⟩, hit⟩
      · rw [hq]
        exact (neg_neg_of_pos hland).le
  | @delivered claims id body at_ o moves ho hm =>
      refine entriesOf_nil fun m hmem hcell => ?_
      obtain ⟨-, p, hp, hrecv, hit⟩ := hm m hmem
      refine absurd ?_ hc
      change it ∈ ((db.purchaseOrders.get? id).map _).getD []
      rw [ho, Option.map_some, Option.getD_some]
      exact List.mem_map.2 ⟨p, List.mem_filter.2 ⟨hp, decide_eq_true hrecv⟩,
        hit.symm.trans (congrArg Cell.it hcell)⟩
  | @opened claims atKitchen key opening at_ item moves id hitem hq hoff hbatch =>
      have hkey : key ≠ it := by
        rintro rfl
        refine hc ?_
        change key ∈ if 0 < round3 opening then [key] else []
        rw [if_pos hq]
        exact List.mem_singleton_self key
      refine entriesOf_nil fun m hm hcell => absurd ?_ hkey
      rcases hbatch with ⟨-, rfl⟩ | rfl
      · obtain rfl := List.mem_singleton.1 hm
        exact congrArg Cell.it hcell
      · obtain ⟨m₀, hm₀, hsame, -⟩ := mem_withUseOnArrival_cell hm
        obtain rfl := List.mem_singleton.1 hm₀
        exact congrArg Cell.it (hsame.trans hcell)
  | @reversed claims no reason at_ =>
      refine entriesOf_nil fun m hm hcell => ?_
      obtain ⟨x, hx, rfl⟩ := List.mem_map.1 hm
      exact absurd (List.mem_map.2 ⟨x, hx, congrArg Cell.it hcell⟩) hc

/-- No ticket is written for what is not on the shelf. -/
theorem Uncounted.sent (hu : Uncounted db it) (hreach : server.Reach db)
    {draft : TicketDraft} {no : TicketNumber} {db₁ : Db} (hs : Sent db draft no db₁) :
    it ∉ (ticketLinesOf draft.lines).map Line.it := by
  intro hmem
  obtain ⟨l, hl, rfl⟩ := List.mem_map.1 hmem
  have hpos := hs.lines_pos l hl
  have hcovered := hs.covered l hl
  have hheld : 0 ≤ db.stock.held ⟨draft.from_, l.it⟩ := by
    obtain ⟨hk, hsafe⟩ := shelfInv_reach hreach
    rw [hk.held]
    exact Shelf.held_nonneg hsafe _
  have hfree : freeAt db.stock draft.from_ l.it = -db.stock.held ⟨draft.from_, l.it⟩ := by
    unfold freeAt balancesAt reservedAt
    rw [hu.bare, Decimal.toRat_zero, zero_sub, round3_neg_qty]
  rw [hfree] at hcovered
  exact absurd (hpos.trans_le hcovered) (not_lt.2 (neg_nonpos.2 hheld))

theorem Uncounted.step (hu : Uncounted db it) (h : op.run db = some db')
    (hreach : server.Reach db) (hc : it ∉ op.counts db) : Uncounted db' it where
  bare loc := by
    have hsums := (ledgerInv_reach (server_stock_reach (hreach.step h))).sums
    rw [hsums, moved_eq_entries, hu.posts h hreach hc loc]
    exact hu.entries hreach loc
  tickets := by
    -- A ticket that is out went out before, or goes out now.
    have hmodify {id : String} {t : TicketRow} {f : TicketRow → TicketRow}
        (ht : db.tickets.get? id = some t) (hmod : db'.tickets = db.tickets.modify id f)
        (hlive : (f t).st.live → t.st.live) (hlines : (f t).lines = t.lines) :
        ∀ id' t', db'.tickets.get? id' = some t' → t'.st.live →
          it ∉ t'.lines.map Line.it := by
      intro id' t' ht' hlive'
      rw [hmod, Table.get?_modify_of_get? ht] at ht'
      split at ht'
      · obtain rfl := Option.some.inj ht'
        rw [hlines]
        exact hu.tickets id t ht (hlive hlive')
      · exact hu.tickets id' t' ht' hlive'
    have hledger := ledgerInv_reach (server_stock_reach hreach)
    cases op.trip h (linesKept_reach hreach) hledger with
    | elsewhere hm hnew hh ht =>
        intro id t hid hlive
        have hview := congrFun ht id
        rw [Table.look_of_get? hid] at hview
        obtain ⟨t₀, ht₀, hsame⟩ := Table.look_eq_some.1 hview.symm
        obtain ⟨hst, -, -, hlines⟩ : t₀.st = t.st ∧ t₀.from_ = t.from_ ∧
            t₀.to_ = t.to_ ∧ t₀.lines = t.lines := by
          simpa [TicketRow.trip] using hsame
        rw [← hlines]
        exact hu.tickets id t₀ ht₀ (hst ▸ hlive)
    | sent hs hstock ht =>
        intro id t hid hlive
        obtain ⟨cells, hw⟩ := hs.wrote
        rw [ht, Table.get?_insert hw.tickets] at hid
        split at hid
        · obtain rfl := Option.some.inj hid
          exact hu.sent hreach hs
        · exact hu.tickets id t hid hlive
    | collected hid hst hs ht =>
        exact hmodify hid ht (fun _ => .inl hst) rfl
    | received hid hst hs ht =>
        exact hmodify hid ht (fun _ => .inr hst) rfl
    | withdrawn hid hst hs ht =>
        exact hmodify hid ht (fun _ => .inl hst) rfl
  orders := by
    have hcarried := (ordersCarried_reach hreach).carried
    have hmodify {id : String} {st : PordStatus}
        (hmod : db'.prodOrders = db.prodOrders.modify id fun o => { o with status := st })
        (hboard : ∀ o, db.prodOrders.get? id = some o → onBoard st = true →
          it ∉ o.lines.map Line.it) :
        ∀ id' o', db'.prodOrders.get? id' = some o' → onBoard o'.status = true →
          it ∉ o'.lines.map Line.it := by
      intro id' o' ho' hon
      rw [hmod, Table.get?_modify] at ho'
      split at ho'
      · next heq =>
          subst heq
          obtain ⟨o, ho, rfl⟩ := Option.map_eq_some_iff.1 ho'
          exact hboard o ho hon
      · exact hu.orders id' o' ho' hon
    cases op.orders h with
    | still hsame => exact hsame ▸ hu.orders
    | raised hins hlines hpos =>
        intro id' o' ho' hon
        rw [Table.get?_insert hins] at ho'
        split at ho'
        · obtain rfl := Option.some.inj ho'
          rw [hlines]
          exact hc
        · exact hu.orders id' o' ho' hon
    | moved ho hboard hmod =>
        refine hmodify hmod fun o' ho' hon => ?_
        obtain rfl := Option.some.inj (ho'.symm.trans ho)
        exact hu.orders _ _ ho (hboard hon)
    | @reopened claims tid reason at_ t ht hst href hmod =>
        refine hmodify hmod fun o ho _ hmem => ?_
        -- The ticket that was withdrawn carried the order's lines.
        obtain ⟨o', ho', hon⟩ := hcarried tid t ht href
        obtain rfl := Option.some.inj (ho'.symm.trans ho)
        obtain ⟨l, hl, rfl⟩ := List.mem_map.1 hmem
        exact hu.tickets tid t ht (.inl hst) (hon l hl)

end Step

/-! ## The catalogue -/

/-- An item the kitchen switches on and off is not counted. -/
def NeverCounted (c : Catalogue) : Prop :=
  ∀ it i, c.items.get? it = some i → isOnOff i = true → Uncounted c.server it

/-- What no door asks for sure: that an operation counts no on/off-only item,
and that nothing holds or carries an item as it becomes one. -/
def Careful (c : Catalogue) : CatalogueOp → Prop
  | .serve op _ => ∀ it ∈ op.counts c.server, ∀ i, c.items.get? it = some i →
      isOnOff i = false
  | .createItem .. => True
  | .patchItem _ it body _ _ => ∀ row, c.items.get? it = some row → isOnOff row = false →
      isOnOff (patchRow row body) = true → (blockersOf c.db it).none_

section Catalogue

variable {c c' : Catalogue} {e : CatalogueOp} {it : ItemKey}

/-- The master is none of an item's business. -/
theorem Uncounted.rows {db : Db} (h : Uncounted db it) (rows : MasterRows) :
    Uncounted { db with rows } it :=
  ⟨h.bare, h.tickets, h.orders⟩

theorem Op.counts_rows (op : Op) (db : Db) (rows : MasterRows) :
    op.counts { db with rows } = op.counts db := by
  cases op <;> rfl

/-- Nothing is counted of an item there is not. -/
theorem uncounted_unknown (hreach : catalogue.Reach c) (hfree : c.items.get? it = none) :
    Uncounted c.server it := by
  have hkeyed := catalogue_keyed hreach
  have hline {lines : List Line} (hlines : ∀ l ∈ lines, (c.items.get? l.it).isSome = true) :
      it ∉ lines.map Line.it := by
    intro hmem
    obtain ⟨l, hl, rfl⟩ := List.mem_map.1 hmem
    have hknown := hlines l hl
    rw [hfree] at hknown
    cases hknown
  refine ⟨fun loc => ?_, fun id t ht _ => ?_, fun id o ho _ => ?_⟩
  · have hsums := (ledgerInv_reach (server_stock_reach (catalogue_server hreach))).sums
    rw [hsums, moved_eq_entries, entriesAt_unknown hkeyed hfree]
    rfl
  · exact hline (hkeyed.2.1 _ (Table.get?_eq_some.1 ht))
  · exact hline (hkeyed.2.2 _ (Table.get?_eq_some.1 ho))

theorem eq_nil_of_sorted {l : List String} (h : l.insertionSort (· ≤ ·) = []) : l = [] := by
  rw [← List.length_eq_zero_iff, ← List.length_insertionSort (· ≤ ·), h]
  rfl

/-- What nothing holds and nothing carries is not counted. -/
theorem uncounted_of_clear {db : Db} (hreach : server.Reach db)
    (h : (blockersOf db it).none_) : Uncounted db it := by
  obtain ⟨hheld, htickets, horders⟩ := h
  have hheld := eq_nil_of_sorted hheld
  have htickets := List.map_eq_nil_iff.1 (eq_nil_of_sorted htickets)
  have horders := List.map_eq_nil_iff.1 (eq_nil_of_sorted horders)
  rw [List.filter_eq_nil_iff] at hheld htickets horders
  have hany {lines : List Line} (hnone : ¬ (lines.any fun l => decide (l.it = it)) = true) :
      it ∉ lines.map Line.it := by
    intro hmem
    obtain ⟨l, hl, hit⟩ := List.mem_map.1 hmem
    exact hnone (List.any_eq_true.2 ⟨l, hl, decide_eq_true hit⟩)
  refine ⟨fun loc => ?_, fun id t ht hlive => ?_, fun id o ho hon => ?_⟩
  · have hinv := ledgerInv_reach (server_stock_reach hreach)
    by_cases hmoved : ∃ m ∈ db.stock.moves, m.cell = ⟨loc, it⟩
    · obtain ⟨m, hm, hcell⟩ := hmoved
      have hloc : m.loc = loc := congrArg Cell.loc hcell
      have hit : m.it = it := congrArg Cell.it hcell
      have hmem : loc ∈ ((db.stock.moves.filter fun m => decide (m.it = it)).map
          MoveRow.loc).dedup :=
        List.mem_dedup.2 (List.mem_map.2 ⟨m, List.mem_filter.2 ⟨hm, decide_eq_true hit⟩, hloc⟩)
      exact not_not.1 fun hne => hheld loc hmem (decide_eq_true hne)
    · rw [hinv.sums]
      refine sumOn_eq_zero fun m hm hcell => ?_
      exact absurd ⟨m, hm, hcell⟩ hmoved
  · refine hany fun hlines => htickets _ (Table.get?_eq_some.1 ht) ?_
    have hst : (decide (t.st = .issued) || decide (t.st = .collected)) = true := by
      rcases hlive with hst | hst
      · rw [hst]
        rfl
      · rw [hst]
        rfl
    exact Bool.and_eq_true_iff.2 ⟨hst, hlines⟩
  · exact hany fun hlines => horders _ (Table.get?_eq_some.1 ho)
      (Bool.and_eq_true_iff.2 ⟨hon, hlines⟩)

/-- An on/off item opens with nothing. -/
theorem openStock_onOff {db db' : Db} {claims : Claims} {atKitchen : Bool} {key : ItemKey}
    {opening : ℚ} {at_ : Instant} {item : Item} (hitem : db.rows.items key = some item)
    (hon : isOnOff item = true) (h : openStock db claims atKitchen key opening at_ = .ok db') :
    round3 opening = 0 := by
  simp only [openStock, bind_ok, assertRule_ok, orNotFound_ok, exists_const,
    ite_eq_iff, pure_ok] at h
  obtain ⟨item', hitem', h⟩ := h
  obtain rfl := Option.some.inj (hitem.symm.trans (Option.filter_eq_some_iff.1 hitem').1)
  rcases h with ⟨-, hzero, -⟩ | ⟨hoff, -⟩
  · exact hzero
  · exact absurd hon hoff

theorem NeverCounted.step (h : NeverCounted c) (hreach : catalogue.Reach c)
    (hcareful : Careful c e) (hstep : catalogue.step c e = some c') : NeverCounted c' := by
  have hserver := catalogue_server hreach
  obtain ⟨hs, -, -⟩ := catalogue_step hstep
  intro it i hi hon
  generalize c'.items = items at hs hi
  generalize c'.server = db at hs ⊢
  cases hs with
  | @served op ages hapart hop hitems =>
      subst hitems
      have hview : server.Reach (c.view ages) := server_reach_rows hserver _
      refine ((h it i hi hon).rows _).step hop hview ?_
      rw [op.counts_rows]
      intro hmem
      have hoff := hcareful it hmem i hi
      rw [hon] at hoff
      cases hoff
  | @created claims role body at_ key db₁ hfree hins hop hdb =>
      have hview : server.Reach (c.db.onMaster items) := server_reach_rows hserver _
      have hbefore : Uncounted (c.db.onMaster items) it := by
        refine @Uncounted.rows _ c.server ?_ _
        have hget := Table.get?_insert hins it
        rw [hi] at hget
        split at hget
        · next hkey => exact uncounted_unknown hreach (hkey ▸ hfree)
        · exact h it i hget.symm hon
      have hafter : Uncounted db₁ it := by
        refine hbefore.step hop hview ?_
        change it ∉ if 0 < round3 body.opening then [key] else []
        split
        · next hpos =>
            rw [List.mem_singleton]
            rintro rfl
            rw [openStock_onOff hi hon (toOption_eq_some.1 hop)] at hpos
            exact lt_irrefl 0 hpos
        · exact List.not_mem_nil
      rcases hdb with rfl | rfl
      · exact hafter
      · exact hafter.rows _
  | @patched perms it' body listed age row hrow hkind hclear hitems hdb =>
      rw [hdb]
      refine @Uncounted.rows _ c.server ?_ _
      rw [hitems, Table.get?_modify] at hi
      split at hi
      · next heq =>
          subst heq
          obtain ⟨row', hrow', rfl⟩ := Option.map_eq_some_iff.1 hi
          cases hwas : isOnOff row' with
          | true => exact h it row' hrow' hwas
          | false =>
              have hclear := hcareful row' hrow' hwas hon
              have hdb : server.Reach c.db := server_reach_rows hserver _
              exact @Uncounted.rows _ c.db (uncounted_of_clear hdb hclear) c.server.rows
      · exact h it i hi hon

/-- Where every step was careful, whatever became on/off only and whatever was
switched, moved, made or sold, nothing of such an item is on a shelf, on a
ticket that is out or on the board. -/
theorem never_counted (h : catalogue.ReachVia Careful c) {i : Item}
    (hi : c.items.get? it = some i) (hon : isOnOff i = true) :
    (∀ loc, c.server.stock.onHand ⟨loc, it⟩ = 0) ∧
    (∀ id t, c.server.tickets.get? id = some t → t.st = .issued ∨ t.st = .collected →
      ∀ l ∈ t.lines, l.it ≠ it) ∧
    ∀ id o, c.server.prodOrders.get? id = some o → onBoard o.status = true →
      ∀ l ∈ o.lines, l.it ≠ it := by
  have hnever : NeverCounted c := by
    refine h.invariant ?_ fun c e c' hr hc hp he => hc.step hr.reach hp he
    rintro c ⟨items, rows, rfl⟩ it i _ _
    refine ⟨fun loc => rfl, fun id t ht => ?_, fun id o ho => ?_⟩
    · cases ht
    · cases ho
  obtain ⟨hbare, htickets, horders⟩ := hnever it i hi hon
  refine ⟨hbare, fun id t ht hlive l hl hit => ?_, fun id o ho hboard l hl hit => ?_⟩
  · exact htickets id t ht hlive (List.mem_map.2 ⟨l, hl, hit⟩)
  · exact horders id o ho hboard (List.mem_map.2 ⟨l, hl, hit⟩)

end Catalogue

/-! ## A dosa beside the paneer -/

def griddleItems : Table ItemKey Item :=
  ⟨[("paneer", ⟨"Paneer", "kg", .RAW, ⟨500⟩, none, none, none, true⟩),
    ("dosa", ⟨"Dosa", "nos", .MTO, ⟨500⟩, none, none, some .kitchen, true⟩)], by decide⟩

def griddle : Catalogue := ⟨griddleItems, Db.fresh pantry, []⟩

def countUp (it : ItemKey) : CatalogueOp :=
  .serve (.createAdjustment ⟨"u4", KITCHEN, true⟩ ⟨KITCHEN, .count, "", [⟨it, 3⟩]⟩ 0) []

/-- Counting up the paneer leaves the dosa as it was. -/
theorem never_counted_paneer : ∃ c, catalogue.step griddle (countUp "paneer") = some c ∧
    c.server.stock.onHand ⟨KITCHEN, "dosa"⟩ = 0 := by
  have hany : (catalogue.step griddle (countUp "paneer")).any (fun c =>
      decide (c.items.get? "dosa" = griddleItems.get? "dosa")) = true := by
    decide +kernel
  obtain ⟨c, hstep, hd⟩ := (Option.any_eq_true _ _).1 hany
  have hinit : catalogue.ReachVia Careful griddle := .init ⟨griddleItems, pantry, rfl⟩
  have hcareful : Careful griddle (countUp "paneer") := by
    intro it hit i hi
    have hcounts : (Op.createAdjustment ⟨"u4", KITCHEN, true⟩
        ⟨KITCHEN, .count, "", [⟨"paneer", 3⟩]⟩ 0).counts griddle.server = ["paneer"] := by
      decide +kernel
    rw [hcounts, List.mem_singleton] at hit
    subst hit
    obtain rfl := Option.some.inj (Eq.trans (by rfl) hi :
      some (⟨"Paneer", "kg", .RAW, ⟨500⟩, none, none, none, true⟩ : Item) = some i)
    decide
  exact ⟨c, hstep, (never_counted (hinit.step hcareful hstep) (of_decide_eq_true hd)
    (by decide)).1 KITCHEN⟩

/-- Counted up itself, the dosa is on the kitchen's shelf. -/
theorem dosa_counted_up : ∃ c i, catalogue.Reach c ∧ c.items.get? "dosa" = some i ∧
    isOnOff i = true ∧ c.server.stock.onHand ⟨KITCHEN, "dosa"⟩ = ⟨3000⟩ := by
  have hany : (catalogue.step griddle (countUp "dosa")).any (fun c =>
      decide (c.items.get? "dosa" = griddleItems.get? "dosa" ∧
        c.server.stock.onHand ⟨KITCHEN, "dosa"⟩ = ⟨3000⟩)) = true := by
    decide +kernel
  obtain ⟨c, hstep, hd⟩ := (Option.any_eq_true _ _).1 hany
  obtain ⟨hitem, hstock⟩ := of_decide_eq_true hd
  have hinit : catalogue.Reach griddle := .init ⟨griddleItems, pantry, rfl⟩
  exact ⟨c, _, hinit.step hstep, hitem, by decide, hstock⟩

end Rch

import Rch.Kit.Shelf
import Rch.Proofs.LedgerIsStock
import Rch.Proofs.LinesKept

/-!
# Shelf safety

The tables of stock and of tickets are read as a shelf with promises: what is
on hand is the cached balance, and each issued ticket is a promise of its own
lines at the place it leaves from. `HoldsKept` is what makes the reading true:
the open reservations are exactly the shares of the tickets still standing.

Each operation then is one of the shelf's own steps, or none. That is the
refinement, and the law of the shelves comes back through it: no balance is
ever below nothing, and none is below what is held on it.
-/

namespace Rch

open Kit

/-! ## The reading -/

def Db.standing (db : Db) : Finset String :=
  ((db.tickets.rows.filter fun t => decide (t.2.st = .issued)).map
    Prod.fst).toFinset

theorem mem_standing {db : Db} {id : String} :
    id ∈ db.standing ↔ ∃ p, db.pledge id = some p ∧ p.standing = true := by
  simp only [Db.standing, List.mem_toFinset, List.mem_map, List.mem_filter,
    Db.pledge, Option.map_eq_some_iff, decide_eq_true_iff, Prod.exists,
    Table.get?_eq_some]
  constructor
  · rintro ⟨id, t, ⟨ht, hst⟩, rfl⟩
    exact ⟨t.pledge, ⟨t, ht, rfl⟩, decide_eq_true hst⟩
  · rintro ⟨p, ⟨t, ht, rfl⟩, hst⟩
    exact ⟨id, t, ⟨ht, of_decide_eq_true hst⟩, rfl⟩

def Pledge.share (p : Pledge) (c : Cell) : Qty :=
  if p.from_ = c.loc then lineTotal p.lines c.it else 0

def Db.share (db : Db) (id : String) (c : Cell) : Qty :=
  match db.pledge id with
  | some p => p.share c
  | none => 0

def shelfOf (db : Db) : Shelf Cell String Qty :=
  ⟨db.stock.onHand, db.standing, db.share⟩

theorem standing_congr {db db' : Db} (h : db'.pledge = db.pledge) :
    db'.standing = db.standing := by
  ext id
  rw [mem_standing, mem_standing, h]

theorem share_congr {db db' : Db} (h : db'.pledge = db.pledge) :
    db'.share = db.share := by
  funext id c
  rw [Db.share, Db.share, h]

def Stock.heldFor (s : Stock) (id : String) (c : Cell) : Qty :=
  sumOn s.openHolds ReservationRow.ticketId id fun r =>
    if r.cell = c then r.qty else 0

/-- The open reservations are the shares of the standing tickets, and
nothing else. -/
structure HoldsKept (db : Db) : Prop where
  owned : ∀ r ∈ db.stock.openHolds, r.ticketId ∈ db.standing
  exact_ : ∀ id ∈ db.standing, ∀ c, db.stock.heldFor id c = db.share id c

theorem HoldsKept.held {db : Db} (h : HoldsKept db) (c : Cell) :
    db.stock.held c = (shelfOf db).held c := by
  calc db.stock.held c
      = ∑ id ∈ db.standing, db.stock.heldFor id c := (sum_sumOn _ h.owned).symm
    _ = (shelfOf db).held c :=
        Finset.sum_congr rfl fun id hid => h.exact_ id hid c

theorem HoldsKept.free {db : Db} (h : HoldsKept db) (c : Cell) :
    freeAt db.stock c.loc c.it = (shelfOf db).free c := by
  rw [freeAt_eq, h.held]
  rfl

theorem holdsKept_congr {db db' : Db} (h : HoldsKept db)
    (hs : db'.stock.openHolds = db.stock.openHolds)
    (ht : db'.pledge = db.pledge) : HoldsKept db' := by
  constructor
  · rw [hs, standing_congr ht]
    exact h.owned
  · intro id hid c
    rw [standing_congr ht] at hid
    rw [Stock.heldFor, hs, share_congr ht]
    exact h.exact_ id hid c

/-! ## The refinement, operation by operation -/

/-- What a step has to show: the reading stays true, and on it the step is one
of the shelf's own. -/
def Refines (db db' : Db) : Prop :=
  HoldsKept db' ∧ Relation.ReflTransGen Shelf.Step (shelfOf db) (shelfOf db')

theorem refines_still {db db' : Db} (h : HoldsKept db)
    (hs : db'.stock = db.stock) (ht : db'.pledge = db.pledge) :
    Refines db db' := by
  refine ⟨holdsKept_congr h (by rw [hs]) ht, ?_⟩
  have hshelf : shelfOf db' = shelfOf db := by
    rw [shelfOf, hs, standing_congr ht, share_congr ht]
    rfl
  rw [hshelf]

theorem refines_posted {db db' : Db} (h : HoldsKept db) {cells : List Cell}
    {moves : List Move}
    (hs : db'.stock = postMoves (lockBalances db.stock cells) moves)
    (ht : db'.pledge = db.pledge)
    (hc : ∀ c, 0 ≤ batchAt moves c ∨ 0 ≤ freeAt db'.stock c.loc c.it) :
    Refines db db' := by
  have hkept : HoldsKept db' := by
    apply holdsKept_congr h _ ht
    rw [hs, Stock.openHolds, postMoves_reservations, lockBalances_reservations,
      Stock.openHolds]
  have honhand : db'.stock.onHand =
      fun c => db.stock.onHand c + batchAt moves c := by
    funext c
    rw [hs, postMoves_onHand, lockBalances_onHand]
  have hshelf : shelfOf db' = (shelfOf db).post (batchAt moves) := by
    rw [shelfOf, honhand, standing_congr ht, share_congr ht]
    rfl
  refine ⟨hkept, .single ?_⟩
  rw [hshelf]
  refine .post fun c => (hc c).imp_right fun hfree => ?_
  rwa [hkept.free, hshelf] at hfree

def Pledge.ofDraft (draft : TicketDraft) : Pledge :=
  ⟨draft.from_, ticketLinesOf draft.lines, true⟩

theorem Sent.fresh {db db₁ : Db} {draft : TicketDraft} {no : TicketNumber}
    (h : Sent db draft no db₁) : no.id ∉ db.standing := by
  obtain ⟨cells, hw⟩ := h.wrote
  rw [mem_standing]
  rintro ⟨p, hp, -⟩
  have hfree : db.tickets.get? no.id = none :=
    (Table.insert?_eq_some hw.tickets).1
  rw [Db.pledge, hfree] at hp
  cases hp

theorem Sent.openHolds {db db₁ : Db} {draft : TicketDraft} {no : TicketNumber}
    (h : Sent db draft no db₁) :
    db₁.stock.openHolds = db.stock.openHolds ++
      (ticketLinesOf draft.lines).map fun l =>
        ⟨draft.from_, l.it, l.qty, no.id, none⟩ := by
  obtain ⟨cells, hw⟩ := h.wrote
  rw [openHolds_reserve hw.stock, holdsOf, List.map_map]
  simp only [Function.comp_def, round3_qty]
  rfl

theorem Sent.onHand {db db₁ : Db} {draft : TicketDraft} {no : TicketNumber}
    (h : Sent db draft no db₁) : db₁.stock.onHand = db.stock.onHand := by
  obtain ⟨cells, hw⟩ := h.wrote
  funext c
  rw [reserve_onHand hw.stock]
  exact lockBalances_onHand ..

theorem sumOn_holds_share (draft : TicketDraft) (id : String) (c : Cell) :
    sumOn ((ticketLinesOf draft.lines).map fun l =>
        (⟨draft.from_, l.it, l.qty, id, none⟩ : ReservationRow))
      ReservationRow.ticketId id (fun r => if r.cell = c then r.qty else 0) =
    (Pledge.ofDraft draft).share c := by
  rw [sumOn_map]
  unfold Pledge.share Pledge.ofDraft ReservationRow.cell
  split
  · next hloc =>
      obtain ⟨loc, it⟩ := c
      have hfrom : draft.from_ = loc := hloc
      apply sumOn_congr
      intro l _
      simp [hfrom]
  · next hloc =>
      apply sumOn_eq_zero
      intro l _ _
      rw [if_neg]
      rintro rfl
      exact hloc rfl

theorem Sent.standing {db db₁ : Db} {draft : TicketDraft} {no : TicketNumber}
    (h : Sent db draft no db₁) :
    db₁.standing = insert no.id db.standing := by
  ext id
  rw [Finset.mem_insert, mem_standing, mem_standing, h.pledge]
  split
  · next hid => simp [hid]
  · next hid => simp [hid]

theorem Sent.share {db db₁ : Db} {draft : TicketDraft} {no : TicketNumber}
    (h : Sent db draft no db₁) :
    db₁.share =
      Function.update db.share no.id (Pledge.ofDraft draft).share := by
  funext id c
  rw [Db.share, h.pledge]
  by_cases hid : id = no.id
  · rw [if_pos hid, hid, Function.update_self]
    rfl
  · rw [if_neg hid, Function.update_of_ne hid]
    rfl

theorem Sent.holdsKept {db db₁ : Db} {draft : TicketDraft} {no : TicketNumber}
    (h : Sent db draft no db₁) (hk : HoldsKept db) : HoldsKept db₁ := by
  constructor
  · rw [h.openHolds, h.standing]
    intro r hr
    rcases List.mem_append.1 hr with hr | hr
    · exact Finset.mem_insert_of_mem (hk.owned r hr)
    · obtain ⟨l, -, rfl⟩ := List.mem_map.1 hr
      exact Finset.mem_insert_self _ _
  · intro id hid c
    rw [h.standing, Finset.mem_insert] at hid
    rw [Stock.heldFor, h.openHolds, sumOn_append, h.share]
    by_cases hne : id = no.id
    · -- the new ticket had nothing held for it before
      have hzero : sumOn db.stock.openHolds ReservationRow.ticketId id
          (fun r => if r.cell = c then r.qty else 0) = 0 :=
        sumOn_eq_zero fun r hr hk' =>
          absurd (hne ▸ hk' ▸ hk.owned r hr) h.fresh
      rw [hzero, zero_add, hne, sumOn_holds_share, Function.update_self]
    · have hzero : sumOn ((ticketLinesOf draft.lines).map fun l =>
            (⟨draft.from_, l.it, l.qty, no.id, none⟩ : ReservationRow))
          ReservationRow.ticketId id
          (fun r => if r.cell = c then r.qty else 0) = 0 := by
        apply sumOn_eq_zero
        intro r hr hk'
        obtain ⟨l, -, rfl⟩ := List.mem_map.1 hr
        exact absurd hk'.symm hne
      rw [hzero, add_zero, Function.update_of_ne hne]
      exact hk.exact_ id (hid.resolve_left hne) c

/-- A share is one line's quantity, or nothing. -/
theorem ofDraft_share_cases (draft : TicketDraft) (c : Cell) :
    (Pledge.ofDraft draft).share c = 0 ∨
      ∃ l ∈ ticketLinesOf draft.lines, draft.from_ = c.loc ∧ l.it = c.it ∧
        (Pledge.ofDraft draft).share c = l.qty := by
  unfold Pledge.share Pledge.ofDraft
  dsimp only
  split
  · next hloc =>
      by_cases hl : ∃ l ∈ ticketLinesOf draft.lines, l.it = c.it
      · obtain ⟨l, hl, hit⟩ := hl
        refine .inr ⟨l, hl, hloc, hit, ?_⟩
        rw [← hit]
        exact lineTotal_of_mem (ticketLinesOf_nodup _) hl
      · exact .inl (lineTotal_eq_zero fun l h hit => hl ⟨l, h, hit⟩)
  · exact .inl rfl

theorem refines_sent {db db₁ : Db} {draft : TicketDraft} {no : TicketNumber}
    (hk : HoldsKept db) (h : Sent db draft no db₁) : Refines db db₁ := by
  have hshelf : shelfOf db₁ =
      (shelfOf db).promise no.id (Pledge.ofDraft draft).share := by
    rw [shelfOf, h.onHand, h.standing, h.share]
    rfl
  refine ⟨h.holdsKept hk, .single ?_⟩
  rw [hshelf]
  refine .promise h.fresh (fun c => ?_) fun c => ?_
  · rcases ofDraft_share_cases draft c with hz | ⟨l, hl, -, -, hq⟩
    · exact hz.ge
    · rw [hq]
      exact (h.lines_pos l hl).le
  · refine (ofDraft_share_cases draft c).imp_right ?_
    rintro ⟨l, hl, hloc, hit, hq⟩
    have hcov := h.covered l hl
    rwa [hloc, hit, hk.free, ← hq] at hcov

/-! ## The handover, the cancellation and the rebuild -/

theorem pledge_of_issued {db : Db} {id : String} {t : TicketRow}
    (ht : db.tickets.get? id = some t) : db.pledge id = some t.pledge := by
  rw [Db.pledge, ht, Option.map_some]

/-- A ticket that stops holding: its id leaves the standing ones, and nobody
else's changes. -/
theorem pledge_dropped {db db' : Db} {id : String} {f : TicketRow → TicketRow}
    (h : db'.tickets = db.tickets.modify id f)
    (hf : ∀ t, (f t).pledge = { t.pledge with standing := false }) (x : String) :
    db'.pledge x =
      if x = id then (db.pledge x).map fun p => { p with standing := false }
      else db.pledge x := by
  rw [Db.pledge, h, Table.get?_modify, Db.pledge]
  split
  · rw [Option.map_map, Option.map_map]
    congr 1
    funext t
    exact hf t
  · rfl

theorem standing_dropped {db db' : Db} {id : String}
    {f : TicketRow → TicketRow} (h : db'.tickets = db.tickets.modify id f)
    (hf : ∀ t, (f t).pledge = { t.pledge with standing := false }) :
    db'.standing = db.standing.erase id := by
  ext x
  rw [Finset.mem_erase, mem_standing, mem_standing, pledge_dropped h hf]
  split
  · next hx => simp [hx]
  · next hx => simp [hx]

theorem share_dropped {db db' : Db} {id : String} {f : TicketRow → TicketRow}
    (h : db'.tickets = db.tickets.modify id f)
    (hf : ∀ t, (f t).pledge = { t.pledge with standing := false }) :
    db'.share = db.share := by
  funext x c
  rw [Db.share, pledge_dropped h hf, Db.share]
  by_cases hx : x = id
  · rw [if_pos hx]
    cases db.pledge x with
    | none => rfl
    | some p => rfl
  · rw [if_neg hx]

theorem holdsKept_dropped {db db' : Db} {id : String} {at_ : Instant}
    {f : TicketRow → TicketRow} {s : Stock} (hk : HoldsKept db)
    (hopen : s.openHolds = db.stock.openHolds)
    (hs : db'.stock = releaseForTicket s id at_)
    (h : db'.tickets = db.tickets.modify id f)
    (hf : ∀ t, (f t).pledge = { t.pledge with standing := false }) :
    HoldsKept db' := by
  constructor
  · rw [hs, openHolds_release, standing_dropped h hf, hopen]
    intro r hr
    obtain ⟨hmem, hne⟩ := List.mem_filter.1 hr
    exact Finset.mem_erase.2 ⟨of_decide_eq_true hne, hk.owned r hmem⟩
  · intro x hx c
    rw [standing_dropped h hf, Finset.mem_erase] at hx
    rw [share_dropped h hf, ← hk.exact_ x hx.2 c, Stock.heldFor, hs,
      openHolds_release, hopen]
    apply sumOn_filter
    intro r _ hr hd
    rw [decide_eq_false_iff_not, not_not] at hd
    exact absurd (hr.symm.trans hd) hx.1

theorem batchAt_ticketOut (t : TicketRow) (id by_ : String) (at_ : Instant)
    (c : Cell) :
    batchAt (ticketMoves t id t.from_ (fun q => -q) .ticketOut by_ at_) c =
      -t.pledge.share c := by
  unfold batchAt ticketMoves Pledge.share TicketRow.pledge
  rw [sumOn_map]
  dsimp only
  split
  · next hloc =>
      obtain ⟨loc, it⟩ := c
      have hfrom : t.from_ = loc := hloc
      rw [lineTotal, ← sumOn_neg]
      apply sumOn_congr
      intro l _
      simp [Move.cell, hfrom]
  · next hloc =>
      rw [neg_zero]
      apply sumOn_eq_zero
      intro l _ hl
      exact absurd (congrArg Cell.loc hl) hloc

theorem refines_collected {db db' : Db} {id by_ : String} {t : TicketRow}
    {at_ : Instant} {moves : List Move} (hk : HoldsKept db)
    (hid : db.tickets.get? id = some t) (hst : t.st = .issued)
    (hm : moves = ticketMoves t id t.from_ (fun q => -q) .ticketOut by_ at_)
    (hs : db'.stock = releaseForTicket (postMoves db.stock moves) id at_)
    (ht : db'.tickets = db.tickets.modify id fun t =>
      { t with st := .collected, collectedAt := some at_ }) :
    Refines db db' := by
  have hf : ∀ t : TicketRow,
      { t with st := .collected, collectedAt := some at_ : TicketRow }.pledge =
        { t.pledge with standing := false } := fun _ => rfl
  have hstand : id ∈ db.standing :=
    mem_standing.2 ⟨_, pledge_of_issued hid, decide_eq_true hst⟩
  have hshare : ∀ c, db.share id c = t.pledge.share c := by
    intro c
    rw [Db.share, pledge_of_issued hid]
  have honhand : db'.stock.onHand =
      fun c => db.stock.onHand c - db.share id c := by
    funext c
    rw [hs, release_onHand, postMoves_onHand, hm, batchAt_ticketOut, hshare,
      sub_eq_add_neg]
  have hshelf : shelfOf db' = (shelfOf db).collect id := by
    rw [shelfOf, honhand, standing_dropped ht hf, share_dropped ht hf]
    rfl
  refine ⟨holdsKept_dropped hk ?_ hs ht hf, .single ?_⟩
  · rw [Stock.openHolds, postMoves_reservations, Stock.openHolds]
  · rw [hshelf]
    exact .collect hstand

theorem refines_withdrawn {db db' : Db} {id : String} {at_ : Instant}
    (hk : HoldsKept db) (hs : db'.stock = releaseForTicket db.stock id at_)
    (ht : db'.tickets = db.tickets.modify id fun t =>
      { t with st := .cancelled }) : Refines db db' := by
  have hf : ∀ t : TicketRow, { t with st := .cancelled : TicketRow }.pledge =
      { t.pledge with standing := false } := fun _ => rfl
  have hshelf : shelfOf db' = (shelfOf db).withdraw id := by
    rw [shelfOf, standing_dropped ht hf, share_dropped ht hf, hs]
    rfl
  refine ⟨holdsKept_dropped hk rfl hs ht hf, .single ?_⟩
  rw [hshelf]
  exact .withdraw

theorem ShelfChange.refines {db db' : Db} (h : ShelfChange db db')
    (hk : HoldsKept db) (hl : LedgerInv db.stock) : Refines db db' := by
  cases h with
  | still hs ht => exact refines_still hk hs ht
  | posted _ hs ht hc _ => exact refines_posted hk hs ht hc
  | @sent draft no db₁ hsent hs ht =>
      have hstill := refines_still (hsent.holdsKept hk) hs (pledge_of_tickets ht)
      exact ⟨hstill.1, (refines_sent hk hsent).2.trans hstill.2⟩
  | collected hid hst hm hs ht => exact refines_collected hk hid hst hm hs ht
  | withdrawn hs ht => exact refines_withdrawn hk hs ht
  | rebuilt hs ht =>
      rw [rebuildBalances_eq hl] at hs
      exact refines_still hk hs (pledge_of_tickets ht)

/-! ## The stock tables of the server are the ledger's machine -/

theorem ShelfChange.stock_reach {db db' : Db} (h : ShelfChange db db')
    (hr : stockMachine.Reach db.stock) : stockMachine.Reach db'.stock := by
  cases h with
  | still hs _ =>
      rw [hs]
      exact hr
  | @posted cells moves hs _ _ _ =>
      rw [hs]
      exact (hr.step (e := .lock cells) rfl).step (e := .post moves) rfl
  | @sent draft no db₁ hsent hs _ =>
      rw [hs]
      obtain ⟨cells, hw⟩ := hsent.wrote
      have hlock := hr.step (e := .lock cells) rfl
      exact hlock.step (e := .hold _) (toOption_eq_some.2 hw.stock)
  | @collected id t by_ at_ moves _ _ _ hs _ =>
      rw [hs]
      exact (hr.step (e := .post moves) rfl).step (e := .release id at_) rfl
  | @withdrawn id at_ hs _ =>
      rw [hs]
      exact hr.step (e := .release id at_) rfl
  | rebuilt hs _ =>
      rw [hs]
      exact hr.step (e := .rebuild) rfl

/-- Whatever the services do, their stock tables stay within the ledger's own
runs. -/
theorem server_stock_reach {db : Db} (h : server.Reach db) :
    stockMachine.Reach db.stock := by
  refine h.invariant (I := fun db => stockMachine.Reach db.stock) ?_ ?_
  · rintro db ⟨rows, rfl⟩
    exact .init rfl
  · intro db op db' hr hs hstep
    exact (Op.shelfChange hstep (linesKept_reach hr)).stock_reach hs

/-! ## Every run -/

/-- The reading of a database is true, and its shelf is safe. -/
def ShelfInv (db : Db) : Prop := HoldsKept db ∧ (shelfOf db).Safe

theorem shelfInv_fresh (rows : MasterRows) : ShelfInv (Db.fresh rows) := by
  have hstand : (Db.fresh rows).standing = ∅ := rfl
  refine ⟨⟨nofun, ?_⟩, ⟨?_, ?_⟩⟩
  · intro id hid
    rw [hstand] at hid
    simp at hid
  · intro id hid
    change id ∈ (Db.fresh rows).standing at hid
    rw [hstand] at hid
    simp at hid
  · intro c
    change ∑ id ∈ (Db.fresh rows).standing, _ ≤ (0 : Qty)
    rw [hstand, Finset.sum_empty]

theorem shelfInv_reach {db : Db} (h : server.Reach db) : ShelfInv db := by
  refine h.invariant ?_ ?_
  · rintro db ⟨rows, rfl⟩
    exact shelfInv_fresh rows
  · rintro db op db' hr ⟨hk, hsafe⟩ hstep
    have hchange := Op.shelfChange hstep (linesKept_reach hr)
    have hledger := ledgerInv_reach (server_stock_reach hr)
    obtain ⟨hk', hrun⟩ := hchange.refines hk hledger
    exact ⟨hk', hsafe.run hrun⟩

/-- No balance is ever negative, and none is below what is held on it. -/
theorem shelf_safety {db : Db} (h : server.Reach db) (c : Cell) :
    0 ≤ db.stock.onHand c ∧ db.stock.held c ≤ db.stock.onHand c := by
  obtain ⟨hk, hsafe⟩ := shelfInv_reach h
  refine ⟨hsafe.onHand_nonneg c, ?_⟩
  rw [hk.held]
  exact hsafe.held_le c

theorem shelf_safety_milk : ∃ db,
    server.run (Db.fresh corner) milkRun = some db ∧
      db.stock.held ⟨STORE, "milk"⟩ = ⟨3000⟩ ∧
      0 ≤ db.stock.onHand ⟨STORE, "milk"⟩ ∧
      db.stock.held ⟨STORE, "milk"⟩ ≤ db.stock.onHand ⟨STORE, "milk"⟩ := by
  have hany : (server.run (Db.fresh corner) milkRun).any (fun db =>
      decide (db.stock.held ⟨STORE, "milk"⟩ = ⟨3000⟩)) = true := by
    decide +kernel
  obtain ⟨db, hrun, hheld⟩ := (Option.any_eq_true _ _).1 hany
  exact ⟨db, hrun, of_decide_eq_true hheld,
    shelf_safety (Machine.reach_run (.init ⟨corner, rfl⟩) hrun) _⟩

end Rch
